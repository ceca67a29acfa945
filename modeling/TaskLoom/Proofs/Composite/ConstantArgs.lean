import TaskLoom.Proofs.Composite.Furnishing
import TaskLoom.Proofs.Composite.Settling
import TaskLoom.Proofs.Hdl.Literals
import TaskLoom.Proofs.Simulation.DelayLine

/-!
# Constant arguments

An argument that is a constant is named by its text.  One reader finds out that the text is a
complete sized literal and declares a pipeline of that width; the other one gives the text its value
when the pipeline is driven with it.  They agree (`Literal.read_of_sized`), and a pipeline of a
generated module delays what drives it (`Circuit.delays_of_wired`), so the instance sees the
constant, cut to its width, as soon as the pipeline is filled.

Main statement: `constant_argument_carried`.
-/

namespace TaskLoom

/-- A pipeline among items that follow the discipline is seen by the circuit as a delay line. -/
theorem Circuit.delays_of_wired {items : List Item} {c : Circuit} {p : Pipeline} {seed : Expr}
    (hw : Wired [] items) (hc : c.Reads items) (hp : p.items seed ⊆ items) : c.Delays p seed where
  seed := by
    rw [hc.assigns]
    exact mem_assignsIn.2 (p.logic_mem hp List.mem_cons_self)
  undriven i hi := by
    have hreg : p.stageName (i + 1) ∈ registersOf items :=
      mem_registersOf.2 ⟨_, p.stage_signal hp hi, rfl, rfl⟩
    exact hw.not_driven hc.nodup hc.assigns hreg
  shifts ρ i hi := by
    have hshift : .clocked p.shift false ∈ p.logic seed := by
      refine List.mem_cons_of_mem _ ?_
      rw [if_neg (by omega)]
      exact List.mem_singleton_self _
    have hblock : p.shift ∈ c.blocks := by
      rw [hc.blocks]
      exact mem_blocksIn.2 (p.logic_mem hp hshift)
    have htarget : p.stageName (i + 1) ∈ Stmt.allTargets p.shift := by
      rw [p.allTargets_shift]
      exact List.mem_map.2 ⟨i, List.mem_range.2 hi, rfl⟩
    rw [(hw.apart_circuit hc.nodup hc.blocks).lastWrite_eq ρ hblock htarget]
    exact p.lastWrite_shift ρ hi
  width i hi := by
    obtain ⟨s, hs, hname, hrange⟩ := p.signal_of_stage hi
    rw [← hname, ← hrange]
    exact hc.signal s (p.signal_mem hp hs)

/-- A pipeline that is driven by a constant: every stage has the value of the constant, cut to the
width, as soon as there were as many edges. -/
theorem Simulator.Delayed.constant {s : Simulator} {c : Circuit} {p : Pipeline} {seed : Expr}
    {past : List Simulator} (hc : c.Delays p seed) (h : s.Delayed c p past) {v : UInt64}
    (hv : ∀ ρ, seed.eval ρ = v) {i : Nat} (hi : i ≤ p.level) : s.get (p.stageName i) =
      if i ≤ past.length then Literal.mask v (BitRange.simulatedWidth p.range) else 0 := by
  cases i with
  | zero =>
    rw [if_pos (Nat.zero_le _)]
    exact (hc.first_eq h.circuit h.settled).trans (by rw [hv])
  | succ i =>
    rw [h.stages i hi]
    split
    · rename_i hle
      have hlast : past.length - (i + 1) < past.length := by omega
      obtain ⟨hcircuit, hsettled⟩ := h.held _ (List.getElem_mem hlast)
      rw [valueAt_of_getElem? (List.getElem?_eq_getElem hlast), hc.first_eq hcircuit hsettled, hv]
    · rfl

/-- The module of a composite task settles in every call, if no two external streams of the task are
connected to one port. -/
theorem generateTask_clean {o : Options} {program : Program} {parts : Parts} {t : Task} {m : Module}
    (h : (generateTask o program parts t).2 = .ok m) (hports : t.ConnectsApart m) :
    ∃ s, Simulator.start m = .ok (s, none) ∧
      ∀ calls, ∀ x ∈ s.sights calls, x.1 ≠ some .unsettled := by
  obtain ⟨cs, -, -, d, hd, rfl⟩ := generateTask_ok h
  obtain ⟨hdistinct, hdeclared, hacyclic⟩ := Plan.orderly_build hd hports
  obtain ⟨rank, hrank⟩ := exists_ranked hdistinct hacyclic
  obtain ⟨s, hstart, hcircuit⟩ := Simulator.start_ranked hrank hdeclared
  have hranked : Ranked s.circuit.assigns rank := by
    rw [hcircuit]
    exact hrank
  exact ⟨s, hstart, Simulator.sights_settled hranked⟩

/-- A complete sized literal has the value that its strict reader found, cut to its width.  So an
argument with that name reaches its instance with that value: the generated module has a pipeline
for it, of the width of the literal and driven by its text, and however the module is simulated, as
long as nobody sets the registers of the pipeline and everything settles, each stage has the value
from the edge on that fills it, and zero before.  The module does settle in every call if no two
external streams of its task are connected to one port. -/
theorem constant_argument_carried {text : String} {k : SizedLiteral}
    (hk : Literal.sized? text = some k) :
    (∃ v, Literal.read text = .ok v ∧ v.toNat = k.value.toNat % 2 ^ k.width.toNat) ∧
    ∀ {o : Options} {program : Program} {parts : Parts} {t : Task} {m : Module}
      {insts : List Instance} {i : Instance} {a : Arg},
      (generateTask o program parts t).2 = .ok m → program.instances t = .ok insts → i ∈ insts →
      a ∈ i.args → a.name = text → a.category.isStream = false →
      let q := argTap o.registerLevel i.name text k.width
      (∀ x ∈ q.signals, x ∈ m.signals) ∧ (∀ l ∈ q.logic (.literal text), l ∈ m.logics) ∧
      (t.ConnectsApart m → ∃ s, Simulator.start m = .ok (s, none) ∧
        ∀ calls, ∀ x ∈ s.sights calls, x.1 ≠ some .unsettled) ∧
      ∀ {s : Simulator}, Simulator.start m = .ok (s, none) → ∀ calls : List Call,
        (∀ x ∈ calls, ∀ j < o.registerLevel, ∀ v, x ≠ .set (q.stageName (j + 1)) v) →
        (∀ x ∈ s.sights calls, x.1 ≠ some .unsettled) →
        ∀ stage ≤ o.registerLevel, ((s.after calls).get (q.stageName stage)).toNat =
          if stage ≤ (s.edges calls).length then k.value.toNat % 2 ^ k.width.toNat else 0 := by
  have hread := Literal.read_of_sized hk
  have hvalue := Literal.toNat_mask_sized hk
  refine ⟨⟨_, hread, hvalue⟩, ?_⟩
  intro o program parts t m insts i a hgen hinsts hi ha hname hstream q
  obtain ⟨insts', items, hinsts', hadd, hlayout, hfurnished⟩ := generateTask_furnished hgen
  obtain rfl := Except.ok.inj (hinsts.symm.trans hinsts')
  obtain ⟨seed, width, hitems, hconstant⟩ := (hfurnished i hi).args a ha hstream
  obtain ⟨rfl, rfl⟩ := hconstant k (by rw [hname]; exact hk)
  rw [hname] at hitems
  refine ⟨fun x hx => (Module.has_iff_mem hadd).2 (q.signal_mem hitems hx),
    fun l hl => (Module.has_iff_mem hadd).2 (q.logic_mem hitems hl), generateTask_clean hgen, ?_⟩
  intro s hstart calls hset hclean stage hstage
  obtain ⟨hc, hsettled, hzero⟩ := Simulator.start_spec hstart
  have hdelays := Circuit.delays_of_wired hlayout.wired (Module.reads_of_addAll hadd hc) hitems
  have hinitial : s.Delayed s.circuit q [] :=
    ⟨rfl, hsettled, nofun, fun j hj => hzero _ (hdelays.undriven j hj)⟩
  have hlast := hinitial.after hdelays calls hset hclean
  rw [List.nil_append] at hlast
  have hseed (ρ : Env) : (Expr.literal text).eval ρ = Literal.mask k.value k.width := by
    rw [Expr.eval, Literal.value, hread]
  obtain ⟨_, _, _, _, _, _, hsized⟩ := Literal.sized_parts hk
  have hpositive := hsized.positive
  have hwidth : BitRange.simulatedWidth q.range = k.width := by
    rw [show q = Pipeline.make (instanceArg i.name text) o.registerLevel k.width from rfl,
      Pipeline.simulatedWidth_make _ _ hsized.fits]
    omega
  rw [hlast.constant hdelays hseed hstage]
  split
  · rw [hwidth, Literal.mask_mask, hvalue]
  · rfl

/-- An instance with a constant of 8 bits that needs 9, in a composite of level 2. -/
def constantTask : Task where
  name := "Top"
  level := .composite
  childTable := [⟨"A", [⟨0, [⟨"8'd300", .scalar, "n"⟩]⟩]⟩]

def constantProgram : Program where
  top := "Top"
  taskTable := [{ name := "A", level := .leaf }, constantTask]

def constantParts : Parts where
  modules := [("A", { name := "A", ports := basePorts ++ [⟨"n", .input, BitRange.bits 8⟩] })]

def constantInstance : Instance :=
  ⟨{ name := "A", level := .leaf }, 0, 0, [⟨"8'd300", .scalar, "n"⟩]⟩

theorem constant_instances : constantProgram.instances constantTask = .ok [constantInstance] := rfl

def constantModule : Module :=
  match (generateTask { registerLevel := 2 } constantProgram constantParts constantTask).2 with
  | .ok m => m
  | .error _ => { name := "" }

theorem constant_generates :
    (generateTask { registerLevel := 2 } constantProgram constantParts constantTask).2 =
      .ok constantModule := by
  have hok : (generateTask { registerLevel := 2 } constantProgram constantParts
      constantTask).2.isOk = true := by decide +kernel
  unfold constantModule
  cases h : (generateTask { registerLevel := 2 } constantProgram constantParts constantTask).2 with
  | ok m => rfl
  | error e =>
    rw [h] at hok
    cases hok

theorem constant_argument_carried_wide :
    Literal.sized? "8'd300" = some ⟨8, 300⟩ ∧
    (generateTask { registerLevel := 2 } constantProgram constantParts constantTask).2 =
      .ok constantModule ∧
    ∃ s, Simulator.start constantModule = .ok (s, none) ∧
      (∀ x ∈ s.sights [.step, .step], x.1 ≠ some .unsettled) ∧
      ((s.after [.step]).get "A_0___const__8b300__q2").toNat = 0 ∧
      ((s.after [.step, .step]).get "A_0___const__8b300__q2").toNat = 44 := by
  have hk : Literal.sized? "8'd300" = some ⟨8, 300⟩ := by decide +kernel
  obtain ⟨-, hcarried⟩ := constant_argument_carried hk
  obtain ⟨-, -, hsettles, hstages⟩ := hcarried constant_generates constant_instances
    (List.mem_singleton_self _) (List.mem_singleton_self _) rfl rfl
  obtain ⟨s, hstart, hclean⟩ := hsettles (by decide +kernel)
  have hname : (argTap 2 constantInstance.name "8'd300" 8).stageName 2 =
      "A_0___const__8b300__q2" := by
    decide +kernel
  have hset (calls : List Call) (hcalls : ∀ x ∈ calls, x = .step) : ∀ x ∈ calls, ∀ j < 2, ∀ v,
      x ≠ .set ((argTap 2 constantInstance.name "8'd300" 8).stageName (j + 1)) v := by
    intro x hx j hj v he
    rw [hcalls x hx] at he
    cases he
  have hone := hstages hstart [.step] (hset _ (by simp)) (hclean _) 2 (Nat.le_refl _)
  have htwo := hstages hstart [.step, .step] (hset _ (by simp)) (hclean _) 2 (Nat.le_refl _)
  rw [hname] at hone htwo
  exact ⟨hk, constant_generates, s, hstart, hclean _, hone, htwo⟩

end TaskLoom
