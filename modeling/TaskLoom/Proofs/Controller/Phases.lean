import TaskLoom.Proofs.Controller.Drain
import TaskLoom.Proofs.Controller.Handshake

/-!
# The phases of a composite's controller

With the reset released once, and no start before that (`ReleasedOnce`), the controller goes through
whole runs: a running phase begins right after an idle cycle (`Controller.running_from`), each
further drain cycle belongs to one drain (`Controller.waiting_from`), and the controller goes back
to idle `level` cycles after the first drain cycle and at no other time (`Controller.end_from`).  So
a drain that an instance sees is not over yet (`Controller.seen_drain`).
-/

namespace TaskLoom

/-- The reset is released in cycle `k`, once, and the composite is not started before. -/
structure ReleasedOnce (n : Nat) (v : Nat → String → UInt64) (k : Nat) : Prop where
  reset : ReleasedAt n v k
  start : ∀ t < n, t < k → v t startPort = 0

variable {level n : Nat} {v : Nat → String → UInt64} {waited : List String} {k t : Nat}

/-- A start is seen only after the release. -/
theorem ReleasedOnce.start_seen (hr : ReleasedOnce n v k) (ht : t < n)
    (hs : Seen level (Up v startPort) t) : k + level ≤ t := by
  obtain ⟨hl, hu⟩ := hs
  have hk : ¬ t - level < k := fun hk => hu (by rw [hr.start _ (by omega) hk]; rfl)
  omega

namespace Controller

/-- The controller leaves idle only after the release has passed through the pipelines. -/
theorem busy_after (h : Controller level n v waited) (hr : ReleasedOnce n v k) (ht : t < n)
    (hs : v t stateReg ≠ 0) : k + level < t := by
  induction t with
  | zero => exact absurd h.first hs
  | succ t ih =>
    by_cases h0 : v t stateReg = 0
    · by_cases hreset : v t resetWire = 0
      · rcases h.idle t ht hreset h0 with ⟨hseen, -⟩ | ⟨-, hn⟩
        · have := hr.start_seen (by omega) hseen
          omega
        · exact absurd hn hs
      · exact absurd (h.reset t ht hreset) hs
    · have := ih (by omega) h0
      omega

theorem released_from (h : Controller level n v waited) (hr : ReleasedOnce n v k) (ht : t < n)
    (hk : k ≤ t) : v t resetWire = 0 := by
  refine h.released t ht ?_
  rw [hr.reset t ht, if_neg (by omega)]

/-- From a cycle that is not idle on, the reset is released. -/
theorem released_of_busy (h : Controller level n v waited) (hr : ReleasedOnce n v k) (ht : t < n)
    (hs : v t stateReg ≠ 0) {u : Nat} (htu : t ≤ u) (hu : u < n) : v u resetWire = 0 := by
  have := h.busy_after hr ht hs
  exact h.released_from hr hu (by omega)

theorem drain_states (h : Controller level n v waited) (hr : ReleasedOnce n v k)
    (hs : v t stateReg = 2) {x : Nat} (htx : t < x) (hxl : x ≤ t + level) (hx : x < n) :
    v x stateReg = 3 := by
  obtain ⟨j, rfl⟩ : ∃ j, x = t + j := ⟨x - t, by omega⟩
  refine (h.drain_run hs (by omega) (by omega) hx fun u hu hu' => ?_).1
  exact h.released_of_busy hr (t := t) (by omega) (by rw [hs]; decide) hu (by omega)

theorem drain_idle (h : Controller level n v waited) (hr : ReleasedOnce n v k)
    (hs : v t stateReg = 2) (ht : t + level + 1 < n) : v (t + level + 1) stateReg = 0 := by
  refine h.drain_end hs ht fun u hu hu' => ?_
  exact h.released_of_busy hr (t := t) (by omega) (by rw [hs]; decide) hu (by omega)

/-- When the first drain cycle is seen, the drain is in its last cycle. -/
theorem seen_drain (h : Controller level n v waited) (hr : ReleasedOnce n v k) (ht : t < n)
    (hs : Seen level (fun u => v u stateReg = 2) t) :
    v t stateReg = if level = 0 then 2 else 3 := by
  obtain ⟨hl, hd⟩ := hs
  by_cases h0 : level = 0
  · subst h0
    rw [if_pos rfl]
    exact hd
  · rw [if_neg h0]
    exact h.drain_states hr hd (by omega) (by omega) ht

theorem not_seen_of_running (h : Controller level n v waited) (hr : ReleasedOnce n v k) (ht : t < n)
    (hs : v t stateReg = 1) : ¬ Seen level (fun u => v u stateReg = 2) t := by
  intro hseen
  have := h.seen_drain hr ht hseen
  rw [hs] at this
  split at this <;> simp at this

theorem waiting_from (h : Controller level n v waited) (hr : ReleasedOnce n v k) (ht : t < n)
    (hs : v t stateReg = 3) : ∃ d, d < t ∧ t ≤ d + level ∧ v d stateReg = 2 := by
  induction t with
  | zero => simp [h.first] at hs
  | succ t ih =>
    by_cases hreset : v t resetWire = 0
    · rcases h.code t (by omega) with h0 | h1 | h2 | h3
      · rcases h.idle t ht hreset h0 with ⟨-, hn⟩ | ⟨-, hn⟩ <;> simp [hn] at hs
      · rcases h.running t ht hreset h1 with ⟨-, hn, -⟩ | ⟨-, hn⟩ <;> simp [hn] at hs
      · have hn := (h.drain t ht hreset h2).1
        rw [hs] at hn
        have hl : 0 < level := by
          by_cases hl : 0 < level
          · exact hl
          · rw [if_neg hl] at hn
            simp at hn
        exact ⟨t, by omega, by omega, h2⟩
      · obtain ⟨d, hdt, htd, hd⟩ := ih (by omega) h3
        refine ⟨d, by omega, ?_, hd⟩
        by_cases he : t = d + level
        · subst he
          simp [h.drain_idle hr hd ht] at hs
        · omega
    · simp [h.reset t ht hreset] at hs

theorem running_from (h : Controller level n v waited) (ht : t < n) (hs : v t stateReg = 1) :
    ∃ a, a < t ∧ v a stateReg = 0 ∧ ∀ x, a < x → x ≤ t → v x stateReg = 1 := by
  induction t with
  | zero => simp [h.first] at hs
  | succ t ih =>
    by_cases hreset : v t resetWire = 0
    · rcases h.code t (by omega) with h0 | h1 | h2 | h3
      · refine ⟨t, by omega, h0, fun x hx hx' => ?_⟩
        rwa [show x = t + 1 by omega]
      · obtain ⟨a, hat, ha, hrun⟩ := ih (by omega) h1
        refine ⟨a, by omega, ha, fun x hx hx' => ?_⟩
        by_cases he : x = t + 1
        · rwa [he]
        · exact hrun x hx (by omega)
      · have hn := (h.drain t ht hreset h2).1
        rw [hs] at hn
        split at hn <;> simp at hn
      · rcases h.waiting t ht hreset h3 with ⟨-, hn⟩ | ⟨-, hn⟩ <;> simp [hn] at hs
    · simp [h.reset t ht hreset] at hs

theorem end_from (h : Controller level n v waited) (hr : ReleasedOnce n v k) (ht : t + 1 < n)
    (hs : v t stateReg ≠ 0) (hs' : v (t + 1) stateReg = 0) :
    ∃ d, v d stateReg = 2 ∧ t = d + level := by
  have hreset := h.released_of_busy hr (by omega) hs (Nat.le_refl t) (by omega)
  rcases h.code t (by omega) with h0 | h1 | h2 | h3
  · exact absurd h0 hs
  · rcases h.running t ht hreset h1 with ⟨-, hn, -⟩ | ⟨-, hn⟩ <;> simp [hn] at hs'
  · have hn := (h.drain t ht hreset h2).1
    rw [hs'] at hn
    have hl : level = 0 := by
      by_cases hl : 0 < level
      · rw [if_pos hl] at hn
        simp at hn
      · omega
    exact ⟨t, h2, by omega⟩
  · obtain ⟨d, hdt, htd, hd⟩ := h.waiting_from hr (by omega) h3
    refine ⟨d, hd, ?_⟩
    by_cases he : t = d + level
    · exact he
    · have hn := h.drain_states hr hd (x := t + 1) (by omega) (by omega) ht
      simp [hn] at hs'

/-- Between a busy cycle and a later idle one, the controller goes back to idle. -/
theorem exists_end {v : Nat → String → UInt64} {x a : Nat} (hxa : x < a) (hx : v x stateReg ≠ 0)
    (ha : v a stateReg = 0) : ∃ e, x ≤ e ∧ e < a ∧ v e stateReg ≠ 0 ∧ v (e + 1) stateReg = 0 := by
  induction a with
  | zero => omega
  | succ a ih =>
    by_cases h0 : v a stateReg = 0
    · have hne : x ≠ a := fun he => hx (he ▸ h0)
      obtain ⟨e, hxe, hea, he, he'⟩ := ih (by omega) h0
      exact ⟨e, hxe, by omega, he, he'⟩
    · exact ⟨a, by omega, by omega, h0, ha⟩

end Controller

end TaskLoom
