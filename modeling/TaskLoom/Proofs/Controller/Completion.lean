import TaskLoom.Proofs.Controller.Lockstep

/-!
# When a run ends before its instances do

A running phase must end only after every instance was done in it (`EndsDone`).  The ends of the
instances arrive `level` cycles late and are not cleared between runs, so a hurried phase ends on
what is left of the run before (`Controller.hurried_ends`).  Main statement: all running phases end
as they must exactly if the instances are prompt in every hurried phase (`completion_iff_prompt`).
A hurried phase needs a `level` of two at least.
-/

namespace TaskLoom

/-- The running phase that ends in cycle `c` ends with the instance done, and that was latched in
the same phase. -/
def EndsDone (v : Nat → String → UInt64) (i : String) (c : Nat) : Prop :=
  v (c + 1) (instanceState i) = 2 ∧
    ∃ d ≤ c, (∀ x, d ≤ x → x ≤ c → v x stateReg = 1) ∧ Latches v i d

variable {level n : Nat} {v : Nat → String → UInt64} {waited : List String} {i : String} {k : Nat}

section
variable (h : Controller level n v waited) (hi : Handshake level n v i) (hr : ReleasedOnce n v k)
include h hi hr

/-- In lock step a running phase ends as it must. -/
theorem Locked.ends_done {c : Nat} (hc : c + 1 < n) (hl : ∀ t ≤ c + 1, Locked v i t)
    (h1 : v c stateReg = 1) (h2 : v (c + 1) stateReg = 2) : EndsDone v i c := by
  obtain ⟨a, hac, ha, hphase⟩ := h.running_from (by omega) h1
  have hdone := (hl (c + 1) (Nat.le_refl _)).done (.inl h2)
  have hbusy : BusyBetween n v a (c + 2) := by
    refine ⟨ha, by omega, by omega, fun x hx hx' => ?_⟩
    by_cases hxc : x = c + 1
    · rw [hxc, h2]
      decide
    · rw [hphase x hx (by omega)]
      decide
  obtain ⟨-, hlatch⟩ := Locked.through_run h hi hr (fun t ht => hl t (by omega)) hbusy
    (x := c + 1) (by omega) (by omega)
  obtain ⟨d, had, hdc, hld⟩ := hlatch hdone
  exact ⟨hdone, d, by omega, fun x hx hx' => hphase x (by omega) hx', hld⟩

omit hi in
/-- At the start of a hurried phase the end of the instance in the run before is seen. -/
theorem Locked.stale_end {a : Nat} (ha : a + 1 < n) (hl : ∀ t ≤ a, Locked v i t)
    (hh : Hurried level v a) : Seen level (fun u => v u (instanceState i) = 2) (a + 1) := by
  obtain ⟨-, -, e, hea, he, he', hae⟩ := hh
  obtain ⟨d, hd, rfl⟩ := h.end_from hr (by omega) he he'
  refine ⟨by omega, (hl (a + 1 - level) (by omega)).done (.inr ?_)⟩
  exact h.drain_states hr hd (by omega) (by omega) (by omega)

theorem Locked.prompt_of_ends {a : Nat} (ha : a + 1 < n) (hl : Locked v i a)
    (hh : Hurried level v a) (hend : EndsDone v i (a + 1)) : Prompt v i (a + 1) := by
  obtain ⟨h0, h1, -⟩ := hh
  have hs1 := hi.starts h hr ha (hl.idle.2 h0) h0 h1
  obtain ⟨-, d, hda, hphase, hlatch⟩ := hend
  have hd : d = a + 1 := by
    by_cases hd : d = a + 1
    · exact hd
    · have := hphase a (by omega) (by omega)
      simp [h0] at this
  subst hd
  rcases hlatch with ⟨hdone, ⟨-, hready⟩ | h3⟩
  · exact ⟨hready, hdone⟩
  · simp [hs1] at h3

end

/-- A hurried phase is over after one cycle, whatever the instances do. -/
theorem Controller.hurried_ends (h : Controller level n v waited) (hr : ReleasedOnce n v k)
    {a : Nat} (ha : a + 2 < n) (hh : Hurried level v a)
    (hseen : ∀ i ∈ waited, Seen level (fun u => v u (instanceState i) = 2) (a + 1)) :
    v (a + 2) stateReg = 2 := by
  have h1 := hh.2.1
  have hreset := h.released_of_busy hr (t := a + 1) (by omega) (by rw [h1]; decide) (Nat.le_refl _)
    (by omega)
  rcases h.running (a + 1) ha hreset h1 with ⟨-, h2, -⟩ | ⟨hno, -⟩
  · exact h2
  · exact absurd hseen hno

theorem Controller.ends_done_iff (h : Controller level n v waited)
    (hs : ∀ i ∈ waited, Handshake level n v i) (hr : ReleasedOnce n v k) :
    (∀ c, c + 1 < n → v c stateReg = 1 → v (c + 1) stateReg = 2 → ∀ i ∈ waited, EndsDone v i c) ↔
    ∀ a, a + 2 < n → Hurried level v a → ∀ i ∈ waited, Prompt v i (a + 1) := by
  constructor
  · intro hends a
    -- the instances are in lock step up to `a`, because they were prompt before
    induction a using Nat.strongRecOn with
    | ind a ih =>
      intro ha hh i hw
      have hlock : ∀ j ∈ waited, ∀ t ≤ a, Locked v j t := fun j hj t hta =>
        locked_of_prompt h (hs j hj) hr hj (c := a)
          (fun b hb hhb => ih b (by omega) (by omega) hhb j hj) hta (by omega)
      have h2 := h.hurried_ends hr ha hh fun j hj =>
        Locked.stale_end h hr (by omega) (hlock j hj) hh
      have hend := hends (a + 1) ha hh.2.1 h2 i hw
      exact Locked.prompt_of_ends h (hs i hw) hr (by omega) (hlock i hw a (Nat.le_refl a)) hh hend
  · intro hprompt c hc h1 h2 i hw
    refine Locked.ends_done h (hs i hw) hr hc (fun t ht => ?_) h1 h2
    exact locked_of_prompt h (hs i hw) hr hw (c := c + 1)
      (fun a ha hh => hprompt a (by omega) hh i hw) ht (by omega)

/-- The running phases of a generated module under arbitrary starts after the release of the reset:
each of them ends with every instance that does not run on its own done in that phase, exactly if
those instances are ready and done at once in every phase that begins fewer than `level` cycles
after the composite went back to idle. -/
theorem completion_iff_prompt {o : Options} {program : Program} {parts : Parts} {task : Task}
    {m : Module} {ds : List Drive} {cs : List Simulator} {insts : List Instance} {k : Nat}
    (hlevel : o.registerLevel < signedBound) (hgen : (generateTask o program parts task).2 = .ok m)
    (hrun : simulate m ds = .ok cs) (henv : LeavesRegisters m ds)
    (hrel : ReleasedOnce cs.length (valueAt cs) k)
    (hinsts : program.instances task = .ok insts) :
    (∀ c, c + 1 < cs.length → valueAt cs c stateReg = 1 → valueAt cs (c + 1) stateReg = 2 →
      ∀ i ∈ insts, i.isAutorun = false → EndsDone (valueAt cs) i.name c) ↔
    ∀ a, a + 2 < cs.length → Hurried o.registerLevel (valueAt cs) a →
      ∀ i ∈ insts, i.isAutorun = false → Prompt (valueAt cs) i.name (a + 1) := by
  obtain ⟨insts', items, c, hinsts', -, hlayout, hc, -⟩ := generateTask_trace hgen hrun henv
  obtain rfl : insts = insts' := Except.ok.inj (hinsts.symm.trans hinsts')
  have hiff := (hlayout.controls hc hlevel).ends_done_iff
    (fun i hi => hlayout.handshakes hc hi) hrel
  simpa only [forall_waitedNames] using hiff

/-- The instance is ready and done from cycle 3 on, and so at once whenever it is started. -/
def promptAnswer (t : Nat) : Bool := 3 ≤ t

/-- A run with the start held high.  Its second phase, which begins in cycle 11, is hurried: the
composite went back to idle in cycle 10. -/
theorem completion_iff_prompt_demo :
    (generateTask demoOptions demoProgram demoParts demoTask).2 = .ok demoModule ∧
    LeavesRegisters demoModule (drivesOf 14 always promptAnswer) ∧
    demoProgram.instances demoTask = .ok [demoInstance] ∧
    ∃ cs, simulate demoModule (drivesOf 14 always promptAnswer) = .ok cs ∧
      ReleasedOnce cs.length (valueAt cs) 0 ∧ Hurried 2 (valueAt cs) 10 ∧
      valueAt cs 11 stateReg = 1 ∧ valueAt cs 12 stateReg = 2 ∧ EndsDone (valueAt cs) "A_0" 11 := by
  obtain ⟨cs, hcs⟩ := demo_solo.exists_run 14 always promptAnswer
  have hlen := hcs.length
  have hstate (t : Nat) (ht : t < 14) : valueAt cs t stateReg =
      (momentAt 2 always promptAnswer t).composite := (hcs.shows ht).composite
  have h11 : valueAt cs 11 stateReg = 1 := hstate 11 (by decide)
  have h12 : valueAt cs 12 stateReg = 2 := hstate 12 (by decide)
  have hhurried : Hurried 2 (valueAt cs) 10 := by
    refine ⟨hstate 10 (by decide), h11, 9, by decide, ?_, hstate 10 (by decide), by decide⟩
    rw [hstate 9 (by decide)]
    decide
  have hprompt : ∀ a, a + 2 < cs.length → Hurried 2 (valueAt cs) a →
      ∀ i ∈ [demoInstance], i.isAutorun = false → Prompt (valueAt cs) i.name (a + 1) := by
    intro a ha hh i hi _
    -- no phase begins before cycle 3, from which on the instance answers
    have hphase : ∀ t < 14, (momentAt 2 always promptAnswer t).composite = 1 →
        bitOf (promptAnswer t) ≠ 0 := by decide
    have hanswer := hphase (a + 1) (by omega) ((hstate _ (by omega)).symm.trans hh.2.1)
    rw [List.mem_singleton.1 hi]
    exact ⟨(hcs.ready _ (by omega)).trans_ne hanswer, (hcs.done _ (by omega)).trans_ne hanswer⟩
  have hend := (completion_iff_prompt (o := demoOptions) (by decide) demo_generates hcs.run
    (demo_solo.leaves 14 _ _) hcs.released demo_instances).2 hprompt 11 (by omega) h11 h12
    demoInstance (by decide) (by decide)
  exact ⟨demo_generates, demo_solo.leaves 14 _ _, demo_instances, cs, hcs.run, hcs.released,
    hhurried, h11, h12, hend⟩

/-- The instance is ready and done in cycle 3 only. -/
def singleAnswer (t : Nat) : Bool := t = 3

/-- With the start held high, the second phase ends although the instance, which is started again,
is not done. -/
theorem phase_ends_before_instance :
    (generateTask demoOptions demoProgram demoParts demoTask).2 = .ok demoModule ∧
    LeavesRegisters demoModule (drivesOf 14 always singleAnswer) ∧
    demoProgram.instances demoTask = .ok [demoInstance] ∧ demoInstance.isAutorun = false ∧
    ∃ cs, simulate demoModule (drivesOf 14 always singleAnswer) = .ok cs ∧
      ReleasedOnce cs.length (valueAt cs) 0 ∧ valueAt cs 11 stateReg = 1 ∧
      valueAt cs 12 stateReg = 2 ∧ valueAt cs 12 (instanceState "A_0") = 1 ∧
      ¬ EndsDone (valueAt cs) "A_0" 11 := by
  obtain ⟨cs, hcs⟩ := demo_solo.exists_run 14 always singleAnswer
  have hstarted : valueAt cs 12 (instanceState "A_0") = 1 := (hcs.shows (by decide)).inst
  refine ⟨demo_generates, demo_solo.leaves 14 _ _, demo_instances, by decide, cs, hcs.run,
    hcs.released, (hcs.shows (by decide)).composite, (hcs.shows (by decide)).composite, hstarted, ?_⟩
  rintro ⟨hdone, -⟩
  rw [hstarted] at hdone
  cases hdone

end TaskLoom
