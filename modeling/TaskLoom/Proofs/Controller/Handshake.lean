import TaskLoom.Proofs.Controller.Runs

/-!
# The handshake with an instance

The controller of an instance holds the start until the instance is ready for it, and raises it
again only after it has latched that the instance is done (`Latches`) and has gone back to idle
because the composite's run ended.  The argument follows the instance from the end of one start to
the beginning of the next (`Handshake.after_start`).
-/

namespace TaskLoom

/-- The reset is released in cycle `k` and stays released. -/
def ReleasedAt (n : Nat) (v : Nat → String → UInt64) (k : Nat) : Prop :=
  ∀ t < n, v t resetPort = if t < k then 0 else 1

/-- The controller of an instance takes note that the instance is done. -/
def Latches (v : Nat → String → UInt64) (i : String) (t : Nat) : Prop :=
  v t (instanceDone i) ≠ 0 ∧
    (v t (instanceState i) = 1 ∧ v t (instanceReady i) ≠ 0 ∨ v t (instanceState i) = 3)

/-- The instance goes back to idle in cycle `r`, when it sees that the composite's run ended. -/
def Returns (level : Nat) (v : Nat → String → UInt64) (i : String) (r : Nat) : Prop :=
  level + 1 ≤ r ∧ v (r - 1) (instanceState i) = 2 ∧ v r (instanceState i) = 0 ∧
    v (r - (level + 1)) stateReg = 2

variable {level n : Nat} {v : Nat → String → UInt64} {i : String} {k t : Nat}

theorem ReleasedAt.seen_iff (h : ReleasedAt n v k) (ht : t < n) :
    Seen level (Up v resetPort) t ↔ k + level ≤ t := by
  rw [Seen, Up]
  constructor
  · rintro ⟨hl, hu⟩
    rw [h (t - level) (by omega)] at hu
    split at hu
    · exact absurd rfl hu
    · omega
  · intro hk
    refine ⟨by omega, ?_⟩
    rw [h (t - level) (by omega), if_neg (by omega)]
    decide

namespace Handshake

/-- Up to the cycle in which the release arrives the instance is idle. -/
theorem held (h : Handshake level n v i) (hrel : ReleasedAt n v k) (ht : t < n)
    (hk : t ≤ k + level) : v t (instanceState i) = 0 := by
  cases t with
  | zero => exact h.first
  | succ t => exact h.reset t ht fun hs => by have := (hrel.seen_iff (by omega)).1 hs; omega

theorem seen_of_ne (h : Handshake level n v i) (hrel : ReleasedAt n v k) (ht : t < n)
    (hs : v t (instanceState i) ≠ 0) {u : Nat} (htu : t ≤ u) (hu : u < n) :
    Seen level (Up v resetPort) u := by
  have hk : ¬ t ≤ k + level := fun hk => hs (h.held hrel ht hk)
  exact (hrel.seen_iff hu).2 (by omega)

theorem start_iff (h : Handshake level n v i) (ht : t < n) :
    v t (instanceStart i) = 1 ↔ v t (instanceState i) = 1 := by
  rw [h.start t ht, bitOf]
  by_cases hs : v t (instanceState i) = 1 <;> simp [hs]

/-- Where an instance can be after the start that ended in cycle `u`: still working, done, or back
at idle at least once. -/
theorem after_start (h : Handshake level n v i) (hrel : ReleasedAt n v k) {u : Nat}
    (hu : v u (instanceState i) = 1) (hu' : v (u + 1) (instanceState i) ≠ 1) (ht : u < t)
    (htn : t < n) :
    v t (instanceState i) = 3 ∨
    v t (instanceState i) = 2 ∧ (∃ d, u ≤ d ∧ d < t ∧ Latches v i d) ∨
    ∃ d r, u ≤ d ∧ d < r ∧ r ≤ t ∧ Latches v i d ∧ Returns level v i r := by
  have hreset : ∀ x, u ≤ x → x < n → Seen level (Up v resetPort) x := fun x hx hxn =>
    h.seen_of_ne hrel (by omega) (by rw [hu]; decide) hx hxn
  obtain ⟨j, rfl⟩ : ∃ j, t = u + 1 + j := ⟨t - (u + 1), by omega⟩
  clear ht
  induction j with
  | zero =>
    rcases h.started u htn (hreset u (by omega) (by omega)) hu with
      ⟨-, h1⟩ | ⟨hr, hd, h2⟩ | ⟨-, -, h3⟩
    · exact absurd h1 hu'
    · exact .inr (.inl ⟨h2, u, by omega, by omega, hd, .inl ⟨hu, hr⟩⟩)
    · exact .inl h3
  | succ j ih =>
    have hseen := hreset (u + 1 + j) (by omega) (by omega)
    rcases ih (by omega) with h3 | ⟨h2, d, hud, hdt, hl⟩ | ⟨d, r, hud, hdr, hrt, hl, hret⟩
    · rcases h.waiting (u + 1 + j) htn hseen h3 with ⟨hd, h2⟩ | ⟨-, h3'⟩
      · exact .inr (.inl ⟨h2, u + 1 + j, by omega, by omega, hd, .inr h3⟩)
      · exact .inl h3'
    · rcases h.finished (u + 1 + j) htn hseen h2 with ⟨⟨hle, hctl⟩, h0⟩ | ⟨-, h2'⟩
      · have hr : v (u + 1 + j + 1 - (level + 1)) stateReg = 2 := by
          rwa [show u + 1 + j + 1 - (level + 1) = u + 1 + j - level by omega]
        exact .inr (.inr ⟨d, u + 1 + j + 1, hud, by omega, Nat.le_refl _, hl, by omega, h2, h0, hr⟩)
      · exact .inr (.inl ⟨h2', d, hud, by omega, hl⟩)
    · exact .inr (.inr ⟨d, r, hud, hdr, by omega, hl, hret⟩)

theorem start_held (h : Handshake level n v i) (hrel : ReleasedAt n v k) (ht : t + 1 < n)
    (hs : v t (instanceStart i) = 1) (hr : v t (instanceReady i) = 0) :
    v (t + 1) (instanceStart i) = 1 := by
  have hs' := (h.start_iff (by omega)).1 hs
  have hseen := h.seen_of_ne hrel (by omega) (by rw [hs']; decide) (Nat.le_refl t) (by omega)
  rcases h.started t ht hseen hs' with ⟨-, h1⟩ | ⟨hr', -⟩ | ⟨hr', -⟩
  · exact (h.start_iff ht).2 h1
  · exact absurd hr hr'
  · exact absurd hr hr'

/-- Between two starts the instance was done, and went back to idle after that. -/
theorem restart (h : Handshake level n v i) (hrel : ReleasedAt n v k) {u w : Nat} (huw : u + 1 < w)
    (hw : w < n) (hu : v u (instanceStart i) = 1) (hwu : v w (instanceStart i) = 1)
    (hlow : v (u + 1) (instanceStart i) ≠ 1) :
    ∃ d r, u ≤ d ∧ d < r ∧ r < w ∧ Latches v i d ∧ Returns level v i r := by
  have hw1 := (h.start_iff hw).1 hwu
  have hlow' : v (u + 1) (instanceState i) ≠ 1 := mt (h.start_iff (by omega)).2 hlow
  rcases h.after_start hrel ((h.start_iff (by omega)).1 hu) hlow' (t := w) (by omega) hw with
    h3 | ⟨h2, -⟩ | ⟨d, r, hud, hdr, hrw, hl, hret⟩
  · simp [hw1] at h3
  · simp [hw1] at h2
  · refine ⟨d, r, hud, hdr, ?_, hl, hret⟩
    have hne : r ≠ w := by
      rintro rfl
      have h0 := hret.2.2.1
      simp [hw1] at h0
    omega

end Handshake

/-- The handshake with every instance that does not run on its own, whatever the children and the
start of the composite do: its start is held until it is ready, and two starts are separated by a
cycle in which the instance was done and a later return to idle, `level + 1` cycles after the
composite's run ended. -/
theorem instance_handshake {o : Options} {program : Program} {parts : Parts} {task : Task}
    {m : Module} {ds : List Drive} {cs : List Simulator} {insts : List Instance} {k : Nat}
    (hgen : (generateTask o program parts task).2 = .ok m) (hrun : simulate m ds = .ok cs)
    (henv : LeavesRegisters m ds) (hrel : ReleasedAt cs.length (valueAt cs) k)
    (hinsts : program.instances task = .ok insts) :
    ∀ i ∈ insts, i.isAutorun = false →
      (∀ t, t + 1 < cs.length → valueAt cs t (instanceStart i.name) = 1 →
        valueAt cs t (instanceReady i.name) = 0 → valueAt cs (t + 1) (instanceStart i.name) = 1) ∧
      ∀ u w, u + 1 < w → w < cs.length → valueAt cs u (instanceStart i.name) = 1 →
        (∀ x, u < x → x < w → valueAt cs x (instanceStart i.name) = 0) →
        valueAt cs w (instanceStart i.name) = 1 →
        ∃ d r, u ≤ d ∧ d < r ∧ r < w ∧ Latches (valueAt cs) i.name d ∧
          Returns o.registerLevel (valueAt cs) i.name r := by
  intro i hi hauto
  obtain ⟨insts', items, c, hinsts', -, hlayout, hc, -⟩ := generateTask_trace hgen hrun henv
  obtain rfl : insts = insts' := Except.ok.inj (hinsts.symm.trans hinsts')
  have hshake := hlayout.handshakes hc (mem_waitedNames hi hauto)
  refine ⟨fun t ht hs hr => hshake.start_held hrel ht hs hr, fun u w huw hw hu hlow hwu => ?_⟩
  refine hshake.restart hrel huw hw hu hwu ?_
  rw [hlow (u + 1) (by omega) huw]
  decide

/-- A run in which the instance is started in cycles 3 and 4, and again in cycle 13. -/
theorem instance_handshake_demo :
    (generateTask demoOptions demoProgram demoParts demoTask).2 = .ok demoModule ∧
    LeavesRegisters demoModule demoDrives ∧
    demoProgram.instances demoTask = .ok [demoInstance] ∧
    ∃ cs, simulate demoModule demoDrives = .ok cs ∧ ReleasedAt cs.length (valueAt cs) 0 ∧
      valueAt cs 3 (instanceStart "A_0") = 1 ∧ valueAt cs 4 (instanceStart "A_0") = 1 ∧
      ∃ d r, 4 ≤ d ∧ d < r ∧ r < 13 ∧ Latches (valueAt cs) "A_0" d ∧
        Returns 2 (valueAt cs) "A_0" r := by
  obtain ⟨cs, hcs⟩ := demo_run
  have hlen := hcs.length
  have hs (t : Nat) (ht : t < 14) : valueAt cs t (instanceState "A_0") =
      (momentAt 2 demoStart demoAnswer t).inst := (hcs.shows ht).inst
  have hrel : ReleasedAt cs.length (valueAt cs) 0 := fun t ht => by
    rw [if_neg (Nat.not_lt_zero t)]
    exact hcs.reset t (by omega)
  obtain ⟨hheld, hagain⟩ := instance_handshake demo_generates hcs.run demo_leaves hrel
    demo_instances demoInstance (by decide) (by decide)
  have hstart3 := (hcs.handshake.start_iff (by decide)).2 (hs 3 (by decide))
  have hlow : ∀ x, 4 < x → x < 13 → valueAt cs x (instanceStart "A_0") = 0 := by
    intro x hx hx'
    have hrest : ∀ x < 13, 4 < x → (momentAt 2 demoStart demoAnswer x).inst ≠ 1 := by decide
    rw [hcs.handshake.start x (by omega), hs x (by omega), beq_false_of_ne (hrest x hx' hx)]
    rfl
  exact ⟨demo_generates, demo_leaves, demo_instances, cs, hcs.run, hrel, hstart3,
    hheld 3 (by omega) hstart3 (hcs.ready 3 (by decide)),
    hagain 4 13 (by decide) (by omega)
      ((hcs.handshake.start_iff (by decide)).2 (hs 4 (by decide))) hlow
      ((hcs.handshake.start_iff (by decide)).2 (hs 13 (by decide)))⟩

end TaskLoom
