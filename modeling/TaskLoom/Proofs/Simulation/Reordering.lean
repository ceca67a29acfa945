import Mathlib.Data.Finset.Card
import Mathlib.Data.Finset.Filter
import Mathlib.Logic.Relation
import TaskLoom.Proofs.Simulation.Acyclic

/-!
# The order of the logic

`NoCycle as`: no target of the assignments `as` reads itself, directly or through other targets.
Such assignments can be ranked (`exists_ranked`), so from given undriven values there is only one
solution (`Circuit.Solves.unique`), whatever the order of the assignments is.

`Circuit.Reordered c c'`: the circuits differ in the order of their assignments and of their blocks
only.  Two simulators of such circuits with equal values have equal values after every call
(`Simulator.Alike.call`), hence after every sequence of calls (`order_irrelevant`).
-/

namespace TaskLoom

/-! ### Assignments without a cycle -/

/-- The target `x` reads the target `y` directly. -/
def Reads (as : List (String × Expr)) (x y : String) : Prop :=
  y ∈ as.map Prod.fst ∧ ∃ a ∈ as, a.1 = x ∧ y ∈ a.2.names

def NoCycle (as : List (String × Expr)) : Prop := ∀ x, ¬ Relation.TransGen (Reads as) x x

theorem NoCycle.nil : NoCycle [] := fun x hx => by
  obtain ⟨_, -, hread⟩ := Relation.TransGen.tail'_iff.1 hx
  simp [Reads] at hread

theorem NoCycle.of_perm {as bs : List (String × Expr)} (h : NoCycle as) (hp : bs.Perm as) :
    NoCycle bs := by
  have hreads {x y : String} (hxy : Reads bs x y) : Reads as x y := by
    obtain ⟨hy, a, ha, hread⟩ := hxy
    exact ⟨(hp.map Prod.fst).mem_iff.1 hy, a, hp.mem_iff.1 ha, hread⟩
  exact fun x hx => h x (Relation.TransGen.mono (fun _ _ => hreads) _ _ hx)

/-- Assignments whose targets nobody reads close no cycle. -/
theorem NoCycle.append {as bs : List (String × Expr)} (h : NoCycle as)
    (hunread : ∀ a ∈ as ++ bs, ∀ x ∈ a.2.names, x ∉ bs.map Prod.fst) : NoCycle (as ++ bs) := by
  have htarget {x y : String} (hxy : Reads (as ++ bs) x y) : y ∉ bs.map Prod.fst := by
    obtain ⟨-, a, ha, -, hread⟩ := hxy
    exact hunread a ha y hread
  have hold {x y : String} (hx : x ∉ bs.map Prod.fst) (hxy : Reads (as ++ bs) x y) :
      Reads as x y := by
    have hy := htarget hxy
    obtain ⟨hmem, a, ha, rfl, hread⟩ := hxy
    rw [List.map_append, List.mem_append] at hmem
    rw [List.mem_append] at ha
    refine ⟨hmem.resolve_right hy, a, ha.resolve_right fun hb => hx ?_, rfl, hread⟩
    exact List.mem_map_of_mem hb
  have hpath {x y : String} (hx : x ∉ bs.map Prod.fst)
      (hxy : Relation.TransGen (Reads (as ++ bs)) x y) : Relation.TransGen (Reads as) x y := by
    induction hxy with
    | single hread => exact .single (hold hx hread)
    | tail hpre hread ih =>
      -- whoever stands inside a path is read
      obtain ⟨_, -, hin⟩ := Relation.TransGen.tail'_iff.1 hpre
      exact ih.tail (hold (htarget hin) hread)
  intro x hx
  obtain ⟨_, -, hin⟩ := Relation.TransGen.tail'_iff.1 hx
  exact h x (hpath (htarget hin) hx)

open Classical in
/-- The targets that a target reads, directly or through other targets. -/
noncomputable def inputsOf (as : List (String × Expr)) (x : String) : Finset String :=
  (as.map Prod.fst).toFinset.filter (Relation.TransGen (Reads as) x)

theorem mem_inputsOf {as : List (String × Expr)} {x y : String} :
    y ∈ inputsOf as x ↔ y ∈ as.map Prod.fst ∧ Relation.TransGen (Reads as) x y := by
  simp only [inputsOf, Finset.mem_filter, List.mem_toFinset]

theorem inputsOf_ssubset {as : List (String × Expr)} (h : NoCycle as) {x y : String}
    (hxy : Reads as x y) : inputsOf as y ⊂ inputsOf as x := by
  refine Finset.ssubset_iff_of_subset (fun z hz => ?_) |>.2 ⟨y, ?_, fun hy => ?_⟩
  · obtain ⟨hmem, hyz⟩ := mem_inputsOf.1 hz
    exact mem_inputsOf.2 ⟨hmem, .head hxy hyz⟩
  · exact mem_inputsOf.2 ⟨hxy.1, .single hxy⟩
  · exact h y (mem_inputsOf.1 hy).2

theorem Ranked.noCycle {as : List (String × Expr)} {rank : String → Nat} (h : Ranked as rank) :
    NoCycle as := by
  have hlower {x y : String} (hxy : Relation.TransGen (Reads as) x y) : rank y < rank x := by
    refine hxy.trans_induction_on (fun hread => ?_) fun _ _ h₁ h₂ => h₂.trans h₁
    obtain ⟨hmem, a, ha, rfl, hread⟩ := hread
    obtain ⟨b, hb, rfl⟩ := List.mem_map.1 hmem
    exact h.lower a ha b hb hread
  exact fun x hx => Nat.lt_irrefl _ (hlower hx)

/-- Different targets without a cycle among them can be ranked, by the number of their inputs. -/
theorem exists_ranked {as : List (String × Expr)} (hd : (as.map Prod.fst).Nodup)
    (h : NoCycle as) : ∃ rank, Ranked as rank := by
  refine ⟨fun x => (inputsOf as x).card, hd, fun a ha b hb hread => ?_, fun a ha => ?_⟩
  · exact Finset.card_lt_card (inputsOf_ssubset h ⟨List.mem_map_of_mem hb, a, ha, rfl, hread⟩)
  · -- a target is none of its own inputs
    have hsub : inputsOf as a.1 ⊂ (as.map Prod.fst).toFinset := by
      refine Finset.ssubset_iff_of_subset (fun z hz => ?_) |>.2 ⟨a.1, ?_, fun hmem => ?_⟩
      · exact List.mem_toFinset.2 (mem_inputsOf.1 hz).1
      · exact List.mem_toFinset.2 (List.mem_map_of_mem ha)
      · exact h a.1 (mem_inputsOf.1 hmem).2
    calc (inputsOf as a.1).card < (as.map Prod.fst).toFinset.card := Finset.card_lt_card hsub
      _ ≤ (as.map Prod.fst).length := List.toFinset_card_le _
      _ = as.length := List.length_map _

theorem Ranked.of_perm {as as' : List (String × Expr)} {rank : String → Nat} (h : Ranked as rank)
    (hp : as'.Perm as) : Ranked as' rank where
  distinct := (hp.map Prod.fst).nodup_iff.2 h.distinct
  lower a ha b hb := h.lower a (hp.mem_iff.1 ha) b (hp.mem_iff.1 hb)
  bounded a ha := hp.length_eq ▸ h.bounded a (hp.mem_iff.1 ha)

/-- The circuits have the same assignments and the same blocks. -/
structure Circuit.Reordered (c c' : Circuit) : Prop where
  widths : c'.widths = c.widths
  assigns : c'.assigns.Perm c.assigns
  blocks : c'.blocks.Perm c.blocks

namespace Circuit.Reordered

variable {c c' : Circuit}

theorem width (h : c.Reordered c') : c'.width = c.width := by
  funext name
  rw [Circuit.width, Circuit.width, h.widths]

theorem isDriven (h : c.Reordered c') (name : String) : c'.isDriven name = c.isDriven name :=
  h.assigns.any_eq

theorem apart (h : c.Reordered c') (ha : c.Apart) : c'.Apart :=
  h.blocks.symm.pairwise ha fun hb r hr hr' => hb r hr' hr

end Circuit.Reordered

/-- All assignments of a circuit hold for the values `v`. -/
def Circuit.Solves (c : Circuit) (v : String → UInt64) : Prop :=
  ∀ a ∈ c.assigns, v a.1 = Literal.mask (a.2.eval ⟨v, c.width⟩) (c.width a.1)

namespace Circuit.Solves

variable {c c' : Circuit} {v w : String → UInt64} {rank : String → Nat}

theorem of_reordered (h : c.Reordered c') (hv : c'.Solves v) : c.Solves v := by
  intro a ha
  rw [← h.width]
  exact hv a (h.assigns.mem_iff.2 ha)

/-- Logic without a cycle has one solution at most over given undriven values: by induction on the
rank of a name. -/
theorem unique (hk : Ranked c.assigns rank) (hv : c.Solves v) (hw : c.Solves w)
    (h : ∀ r, c.isDriven r = false → w r = v r) : w = v := by
  have hall (n : Nat) : ∀ r, rank r < n → w r = v r := by
    induction n with
    | zero => exact fun r hr => absurd hr (Nat.not_lt_zero _)
    | succ n ih =>
      intro r hr
      by_cases hd : c.isDriven r = true
      · obtain ⟨a, ha, he⟩ := List.any_eq_true.1 hd
        obtain rfl : a.1 = r := by simpa using he
        have hin : ∀ x ∈ a.2.names, w x = v x := by
          intro x hx
          by_cases hdx : c.isDriven x = true
          · obtain ⟨b, hb, he'⟩ := List.any_eq_true.1 hdx
            obtain rfl : b.1 = x := by simpa using he'
            have hlower := hk.lower a ha b hb hx
            exact ih b.1 (by omega)
          · exact h x (by simpa using hdx)
        have heval : a.2.eval ⟨w, c.width⟩ = a.2.eval ⟨v, c.width⟩ :=
          Expr.eval_congr (by rfl) a.2 hin
        rw [hw a ha, hv a ha, heval]
      · exact h r (by simpa using hd)
  funext r
  exact hall (rank r + 1) r (Nat.lt_succ_self _)

end Circuit.Solves

namespace Simulator

variable {s s' t t' : Simulator} {rank : String → Nat}

/-- Two settled states of the same logic with the same undriven values are the same. -/
theorem Settled.unique (hc : s.circuit.Reordered t.circuit) (hk : Ranked s.circuit.assigns rank)
    (hs : s.Settled) (ht : t.Settled)
    (h : ∀ r, s.circuit.isDriven r = false → t.get r = s.get r) : t.get = s.get :=
  Circuit.Solves.unique hk hs (.of_reordered hc ht) h

/-- The simulators run the same logic in some order, and all their values are the same. -/
structure Alike (s t : Simulator) : Prop where
  circuit : s.circuit.Reordered t.circuit
  get : t.get = s.get

/-- Settling succeeds in any order and ends in the same values. -/
theorem Alike.settle (h : s.Alike t) (hk : Ranked s.circuit.assigns rank) :
    ∃ s' t', s.settle = (s', none) ∧ t.settle = (t', none) ∧ s'.Alike t' ∧
      s'.circuit = s.circuit := by
  obtain ⟨s', hs'⟩ := settle_ranked hk
  obtain ⟨t', ht'⟩ := settle_ranked (hk.of_perm h.circuit.assigns)
  have hqs := settle_frame hs'
  have hqt := settle_frame ht'
  have hc : s'.circuit.Reordered t'.circuit := by
    rw [hqs.circuit, hqt.circuit]
    exact h.circuit
  refine ⟨s', t', hs', ht', ⟨hc, ?_⟩, hqs.circuit⟩
  refine Settled.unique hc (hqs.circuit ▸ hk) (settle_settled hs') (settle_settled ht') ?_
  intro r hr
  rw [hqs.circuit] at hr
  rw [hqs.get r hr, hqt.get r ((h.circuit.isDriven r).trans hr), h.get]

theorem Alike.put (h : s.Alike t) (name : String) (v : UInt64) :
    (s.put name v).Alike (t.put name v) := by
  refine ⟨h.circuit, funext fun r => ?_⟩
  rw [get_put, get_put, h.circuit.width, h.get]

/-- All blocks read the values before the edge, and each name is written by one of them at most. -/
theorem Alike.clock (h : s.Alike t) (ha : s.circuit.Apart) : s.clock.Alike t.clock := by
  have henv : t.env = s.env := by rw [env, env, h.get, h.circuit.width]
  refine ⟨by simpa using h.circuit, funext fun r => ?_⟩
  by_cases hr : ∃ b ∈ s.circuit.blocks, r ∈ Stmt.allTargets b
  · obtain ⟨b, hb, hr⟩ := hr
    rw [get_clock_of_mem ha hb hr,
      get_clock_of_mem (h.circuit.apart ha) (h.circuit.blocks.mem_iff.2 hb) hr, henv, h.get,
      h.circuit.width]
  · have hnone : ∀ b ∈ s.circuit.blocks, r ∉ Stmt.allTargets b := fun b hb hb' => hr ⟨b, hb, hb'⟩
    rw [get_clock, get_clock, Circuit.lastWrite_flatMap hnone,
      Circuit.lastWrite_flatMap fun b hb => hnone b (h.circuit.blocks.mem_iff.1 hb)]
    exact congrFun h.get r

end Simulator

/-! ### Calls -/

/-- What can be asked of a simulator. -/
inductive Call where
  | set (name : String) (v : UInt64)
  | settle
  | step

namespace Simulator

variable {s t : Simulator} {rank : String → Nat}

/-- The simulator after a call, and how the call failed. -/
def call (s : Simulator) : Call → Simulator × Option SimulationError
  | .set name v => s.set name v
  | .settle => s.settle
  | .step => s.step

/-- What is seen after a call: how it failed, and the values of all names. -/
abbrev Sight := Option SimulationError × (String → UInt64)

/-- What is seen after each of some calls. -/
def sights (s : Simulator) : List Call → List Sight
  | [] => []
  | c :: cs => ((s.call c).2, (s.call c).1.get) :: (s.call c).1.sights cs

/-- A call fails alike on simulators that are alike, and leaves them so. -/
theorem Alike.call (h : s.Alike t) (hk : Ranked s.circuit.assigns rank) (ha : s.circuit.Apart)
    (c : Call) : (t.call c).2 = (s.call c).2 ∧ (s.call c).1.Alike (t.call c).1 ∧
      (s.call c).1.circuit = s.circuit := by
  cases c with
  | set name v =>
    simp only [Simulator.call, Simulator.set, h.circuit.widths, h.circuit.isDriven]
    split
    · exact ⟨rfl, h, rfl⟩
    split
    · exact ⟨rfl, h, rfl⟩
    · obtain ⟨s', t', hs', ht', halike, hcircuit⟩ := (h.put name v).settle hk
      rw [hs', ht']
      exact ⟨rfl, halike, hcircuit⟩
  | settle =>
    obtain ⟨s', t', hs', ht', halike, hcircuit⟩ := h.settle hk
    rw [Simulator.call, Simulator.call, hs', ht']
    exact ⟨rfl, halike, hcircuit⟩
  | step =>
    obtain ⟨s', t', hs', ht', halike, hcircuit⟩ :=
      (h.clock ha).settle (by rw [circuit_clock]; exact hk)
    rw [Simulator.call, Simulator.call, Simulator.step, Simulator.step, hs', ht']
    exact ⟨rfl, halike, hcircuit.trans circuit_clock⟩

theorem Alike.sights_eq (h : s.Alike t) (hk : Ranked s.circuit.assigns rank)
    (ha : s.circuit.Apart) (cs : List Call) : t.sights cs = s.sights cs := by
  induction cs generalizing s t with
  | nil => rfl
  | cons c cs ih =>
    obtain ⟨hfailure, halike, hcircuit⟩ := h.call hk ha c
    rw [sights, sights, hfailure, halike.get,
      ih halike (by rw [hcircuit]; exact hk) (by rw [hcircuit]; exact ha)]

end Simulator

/-- What is seen of a simulation of a module after its start and after each of some calls. -/
def Module.sights (m : Module) (cs : List Call) : Except SimulationError (List Simulator.Sight) :=
  (Simulator.start m).map fun x => (x.2, x.1.get) :: x.1.sights cs

/-- Logic whose assignments have declared, different targets and no cycle, and whose blocks assign
different names, can be written in any order: nothing of it is seen in any sequence of calls.  The
blocks may even write targets of assignments, which settling sets right. -/
theorem order_irrelevant {m : Module} {ls : List Logic} (hls : ls.Perm m.logics)
    (hdeclared : ∀ a ∈ Circuit.assignsOf m.logics, m.carries a.1 = true)
    (hdistinct : ((Circuit.assignsOf m.logics).map Prod.fst).Nodup)
    (hacyclic : NoCycle (Circuit.assignsOf m.logics))
    (hapart : (Circuit.blocksOf m.logics).Pairwise fun b b' =>
      ∀ r ∈ Stmt.allTargets b, r ∉ Stmt.allTargets b') (cs : List Call) :
    ({ m with logics := ls } : Module).sights cs = m.sights cs := by
  obtain ⟨rank, hk⟩ := exists_ranked hdistinct hacyclic
  have hassigns : (Circuit.assignsOf ls).Perm (Circuit.assignsOf m.logics) := hls.filterMap _
  have hblocks : (Circuit.blocksOf ls).Perm (Circuit.blocksOf m.logics) := hls.filterMap _
  have hcircuit : Circuit.ofModule m =
      .ok ⟨Circuit.widthsOf m, Circuit.assignsOf m.logics, Circuit.blocksOf m.logics⟩ :=
    Circuit.ofModule_ok hdeclared
  have hcircuit' : Circuit.ofModule { m with logics := ls } =
      .ok ⟨Circuit.widthsOf m, Circuit.assignsOf ls, Circuit.blocksOf ls⟩ :=
    Circuit.ofModule_ok fun a ha => hdeclared a (hassigns.mem_iff.1 ha)
  have hinitial : (Simulator.initial ⟨Circuit.widthsOf m, Circuit.assignsOf m.logics,
      Circuit.blocksOf m.logics⟩).Alike (Simulator.initial ⟨Circuit.widthsOf m,
        Circuit.assignsOf ls, Circuit.blocksOf ls⟩) := ⟨⟨rfl, hassigns, hblocks⟩, rfl⟩
  obtain ⟨s, t, hs, ht, halike, hc⟩ := hinitial.settle hk
  have hstart : Simulator.start m = .ok (s, none) := by rw [Simulator.start, hcircuit, ← hs]; rfl
  have hstart' : Simulator.start { m with logics := ls } = .ok (t, none) := by
    rw [Simulator.start, hcircuit', ← ht]; rfl
  rw [Module.sights, Module.sights, hstart, hstart']
  simp only [Except.map, halike.get,
    halike.sights_eq (by rw [hc]; exact hk) (by rw [hc]; exact hapart) cs]

/-- A counter that is shown inverted, with the wires before what they read. -/
def shownCounter : Module where
  name := "counter"
  ports := [⟨"go", .input, none⟩, ⟨"shown", .output, BitRange.bits 4⟩]
  signals := [⟨"next", .wire, BitRange.bits 4, []⟩, ⟨"n", .reg, BitRange.bits 4, []⟩,
    ⟨"ran", .reg, none, []⟩]
  logics := [.assign "shown" (.unary .complement (.ident "next")),
    .assign "next" (.binary .add (.ident "n") (.ident "go")),
    .clocked [.assign "n" (.ident "next")] false,
    .clocked [.branch (.ident "go") [.assign "ran" (.ident "go")] []] false]

theorem order_irrelevant_counter :
    shownCounter.logics.reverse.Perm shownCounter.logics ∧
    (∀ a ∈ Circuit.assignsOf shownCounter.logics, shownCounter.carries a.1 = true) ∧
    ((Circuit.assignsOf shownCounter.logics).map Prod.fst).Nodup ∧
    NoCycle (Circuit.assignsOf shownCounter.logics) ∧
    (Circuit.blocksOf shownCounter.logics).Pairwise (fun b b' =>
      ∀ r ∈ Stmt.allTargets b, r ∉ Stmt.allTargets b') ∧
    ({ shownCounter with logics := shownCounter.logics.reverse } : Module).sights
        [.set "go" 1, .step, .set "next" 3, .step, .settle] =
      shownCounter.sights [.set "go" 1, .step, .set "next" 3, .step, .settle] := by
  have hperm := List.reverse_perm shownCounter.logics
  have hdeclared : ∀ a ∈ Circuit.assignsOf shownCounter.logics,
      shownCounter.carries a.1 = true := by decide
  have hdistinct : ((Circuit.assignsOf shownCounter.logics).map Prod.fst).Nodup := by decide
  have hranked : Ranked (Circuit.assignsOf shownCounter.logics)
      fun x => if x = "shown" then 1 else 0 := ⟨hdistinct, by decide, by decide⟩
  have hapart : (Circuit.blocksOf shownCounter.logics).Pairwise fun b b' =>
      ∀ r ∈ Stmt.allTargets b, r ∉ Stmt.allTargets b' := by decide
  exact ⟨hperm, hdeclared, hdistinct, hranked.noCycle, hapart,
    order_irrelevant hperm hdeclared hdistinct hranked.noCycle hapart _⟩

end TaskLoom
