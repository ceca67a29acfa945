import TaskLoom.Proofs.Simulation.Settle

/-!
# What a clock edge writes

`Stmt.allTargets` lists the names that a block may assign, whatever the values are; a block writes
nothing else (`Stmt.allWrites_subset`).  At an edge the last write to a name counts
(`Simulator.get_clock`), so if no two blocks of a circuit share a target (`Circuit.Apart`), a
register takes what its own block writes, cut to its width, or keeps its value
(`Simulator.get_clock_of_mem`).
-/

namespace TaskLoom

namespace Stmt

mutual

/-- The names that a statement may assign. -/
def targets : Stmt → List String
  | .assign target _ => [target]
  | .branch _ onTrue onFalse => allTargets onTrue ++ allTargets onFalse
  | .select _ arms => armTargets arms
  | .display .. => []

def allTargets : List Stmt → List String
  | [] => []
  | s :: ss => targets s ++ allTargets ss

def armTargets : List (Expr × List Stmt) → List String
  | [] => []
  | (_, body) :: arms => allTargets body ++ armTargets arms

end

mutual

theorem writes_subset (ρ : Env) (st : Stmt) : ∀ w ∈ writes ρ st, w.1 ∈ targets st := by
  intro w hw
  cases st with
  | assign target value =>
    simp only [writes, List.mem_singleton] at hw
    simp [targets, hw]
  | branch cond onTrue onFalse =>
    simp only [writes] at hw
    simp only [targets, List.mem_append]
    split at hw
    · exact .inl (allWrites_subset ρ onTrue w hw)
    · exact .inr (allWrites_subset ρ onFalse w hw)
  | select subject arms => exact armWrites_subset ρ _ arms w hw
  | display format args => simp [writes] at hw

theorem allWrites_subset (ρ : Env) (sts : List Stmt) :
    ∀ w ∈ allWrites ρ sts, w.1 ∈ allTargets sts := by
  intro w hw
  cases sts with
  | nil => simp [allWrites] at hw
  | cons st sts =>
    simp only [allWrites, List.mem_append] at hw
    simp only [allTargets, List.mem_append]
    rcases hw with hw | hw
    · exact .inl (writes_subset ρ st w hw)
    · exact .inr (allWrites_subset ρ sts w hw)

theorem armWrites_subset (ρ : Env) (subject : UInt64) (arms : List (Expr × List Stmt)) :
    ∀ w ∈ armWrites ρ subject arms, w.1 ∈ armTargets arms := by
  intro w hw
  match arms with
  | [] => simp [armWrites] at hw
  | (pattern, body) :: arms =>
    simp only [armWrites] at hw
    simp only [armTargets, List.mem_append]
    split at hw
    · exact .inl (allWrites_subset ρ body w hw)
    · exact .inr (armWrites_subset ρ subject arms w hw)

end

end Stmt

/-- The last value written to a name. -/
def lastWrite (r : String) : List (String × UInt64) → Option UInt64
  | [] => none
  | w :: ws => (lastWrite r ws).or (if w.1 = r then some w.2 else none)

theorem lastWrite_append (r : String) (xs ys : List (String × UInt64)) :
    lastWrite r (xs ++ ys) = (lastWrite r ys).or (lastWrite r xs) := by
  induction xs with
  | nil => simp [lastWrite]
  | cons x xs ih => simp [lastWrite, ih, Option.or_assoc]

theorem lastWrite_eq_none {r : String} {ws : List (String × UInt64)} (h : ∀ w ∈ ws, w.1 ≠ r) :
    lastWrite r ws = none := by
  induction ws with
  | nil => rfl
  | cons w ws ih =>
    simp [lastWrite, ih fun w hw => h w (by simp [hw]), h w (by simp)]

/-- With all names different, each write counts. -/
theorem lastWrite_of_nodup {r : String} {v : UInt64} {ws : List (String × UInt64)}
    (hnd : (ws.map Prod.fst).Nodup) (h : (r, v) ∈ ws) : lastWrite r ws = some v := by
  induction ws with
  | nil => simp at h
  | cons w ws ih =>
    obtain ⟨hw, hnd⟩ := List.nodup_cons.1 hnd
    rcases List.mem_cons.1 h with rfl | h
    · have hnone : lastWrite r ws = none :=
        lastWrite_eq_none fun w' hw' he => hw (List.mem_map.2 ⟨w', hw', he⟩)
      simp [lastWrite, hnone]
    · simp [lastWrite, ih hnd h]

namespace Circuit

/-- No two blocks may assign the same name. -/
def Apart (c : Circuit) : Prop :=
  c.blocks.Pairwise fun b b' => ∀ r ∈ Stmt.allTargets b, r ∉ Stmt.allTargets b'

theorem lastWrite_flatMap {ρ : Env} {r : String} {bs : List (List Stmt)}
    (h : ∀ b ∈ bs, r ∉ Stmt.allTargets b) : lastWrite r (bs.flatMap (Stmt.allWrites ρ)) = none :=
  lastWrite_eq_none fun w hw he => by
    obtain ⟨b, hb, hw⟩ := List.mem_flatMap.1 hw
    exact h b hb (he ▸ Stmt.allWrites_subset ρ b w hw)

/-- The write to a target of a block comes from that block. -/
theorem Apart.lastWrite_eq {c : Circuit} (h : c.Apart) (ρ : Env) {b : List Stmt} {r : String}
    (hb : b ∈ c.blocks) (hr : r ∈ Stmt.allTargets b) :
    lastWrite r (c.blocks.flatMap (Stmt.allWrites ρ)) = lastWrite r (Stmt.allWrites ρ b) := by
  obtain ⟨before, after, he⟩ := List.append_of_mem hb
  have hp := h
  rw [Apart, he, List.pairwise_append, List.pairwise_cons] at hp
  obtain ⟨-, ⟨hafter, -⟩, hbefore⟩ := hp
  have h₁ : lastWrite r (before.flatMap (Stmt.allWrites ρ)) = none :=
    lastWrite_flatMap fun b' hb' hr' => hbefore b' hb' b (by simp) r hr' hr
  have h₂ : lastWrite r (after.flatMap (Stmt.allWrites ρ)) = none :=
    lastWrite_flatMap fun b' hb' => hafter b' hb' r hr
  rw [he, List.flatMap_append, List.flatMap_cons, lastWrite_append, lastWrite_append, h₁, h₂]
  simp

end Circuit

namespace Simulator

variable {s : Simulator}

theorem get_foldl_put (ws : List (String × UInt64)) (r : String) :
    (ws.foldl (fun s w => s.put w.1 w.2) s).get r =
      (lastWrite r ws).elim (s.get r) (Literal.mask · (s.circuit.width r)) := by
  induction ws generalizing s with
  | nil => rfl
  | cons w ws ih =>
    rw [List.foldl_cons, ih, lastWrite, circuit_put]
    cases h : lastWrite r ws with
    | some v => rfl
    | none =>
      simp only [Option.none_or, Option.elim_none, get_put]
      split
      · rename_i he; subst he; rfl
      · rfl

theorem circuit_foldl_put (ws : List (String × UInt64)) :
    (ws.foldl (fun s w => s.put w.1 w.2) s).circuit = s.circuit := by
  induction ws generalizing s with
  | nil => rfl
  | cons w ws ih => rw [List.foldl_cons, ih, circuit_put]

@[simp] theorem circuit_clock : s.clock.circuit = s.circuit := circuit_foldl_put _

/-- After an edge a name has the last value that the blocks wrote to it, or the one it had. -/
theorem get_clock (r : String) :
    s.clock.get r =
      (lastWrite r (s.circuit.blocks.flatMap (Stmt.allWrites s.env))).elim (s.get r)
        (Literal.mask · (s.circuit.width r)) :=
  get_foldl_put _ r

theorem get_clock_of_mem (h : s.circuit.Apart) {b : List Stmt} {r : String}
    (hb : b ∈ s.circuit.blocks) (hr : r ∈ Stmt.allTargets b) :
    s.clock.get r =
      (lastWrite r (Stmt.allWrites s.env b)).elim (s.get r)
        (Literal.mask · (s.circuit.width r)) := by
  rw [get_clock, h.lastWrite_eq s.env hb hr]

end Simulator

end TaskLoom
