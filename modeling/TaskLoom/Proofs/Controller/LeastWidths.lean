import Mathlib.Algebra.Group.Nat.Defs
import Mathlib.Order.Bounds.Basic
import TaskLoom.Composite.Stream
import TaskLoom.Composite.Memory
import TaskLoom.Proofs.Controller.Drain
import TaskLoom.Proofs.Hdl.Ranges

/-!
# Computed widths are the least sufficient ones

A composite computes three widths from a number of binary digits: that of the addresses of a buffer,
that of its countdown, and the logarithm of the bytes of a data word.  The digits of a number, but
at least one, are the least number of bits that can hold it (`isLeast_bitLength`); the widths
follow.

The register of the countdown has room for the value that a controller loads into it, in the module
as well as in its text, so a run finds the whole value there when it begins to drain
(`computed_widths_least`).
-/

namespace TaskLoom

theorem isLeast_bitLength (n : Nat) :
    IsLeast {w : Nat | 1 ≤ w ∧ n < 2 ^ w} (max 1 (bitLength n)) := by
  constructor
  · exact ⟨Nat.le_max_left 1 _, (bitLength_le_iff n _).1 (Nat.le_max_right 1 _)⟩
  · rintro w ⟨hpos, hw⟩
    exact Nat.max_le.2 ⟨hpos, (bitLength_le_iff n w).2 hw⟩

theorem isLeast_countdownWidth (level : Nat) :
    IsLeast {c : Nat | 1 ≤ c ∧ level - 1 < 2 ^ c} (countdownWidth level) :=
  isLeast_bitLength (level - 1)

/-- An address has bits for all places from zero to `depth - 1`. -/
theorem isLeast_bufferAddressWidth {depth : Int} (hpos : 1 ≤ depth) (hdepth : depth < signedBound) :
    IsLeast {w : Nat | 1 ≤ w ∧ depth ≤ 2 ^ w} (bufferAddressWidth depth) := by
  obtain ⟨n, rfl⟩ : ∃ n : Nat, depth = n + 1 := ⟨(depth - 1).toNat, by omega⟩
  have hlast : (wrap64 ((n : Int) + 1 - 1)).toNat = n := by
    rw [wrap64_of_fits ((fitsSigned_iff _).2 ⟨by omega, by omega⟩)]
    omega
  have hset : {w : Nat | 1 ≤ w ∧ (n : Int) + 1 ≤ 2 ^ w} = {w : Nat | 1 ≤ w ∧ n < 2 ^ w} := by
    ext w
    have hcast : ((2 ^ w : Nat) : Int) = 2 ^ w := by push_cast; rfl
    simp only [Set.mem_ofPred_eq, ← hcast]
    omega
  rw [hset, bufferAddressWidth, hlast]
  exact isLeast_bitLength n

theorem bitLength_pred_two_pow (k : Nat) : bitLength (2 ^ k - 1) = k := by
  have hpos : 0 < 2 ^ k := Nat.two_pow_pos k
  refine Nat.le_antisymm ((bitLength_le_iff _ _).2 (Nat.sub_lt hpos Nat.one_pos)) ?_
  by_contra hlt
  -- then one bit less would hold it too
  have hless := (bitLength_le_iff (2 ^ k - 1) (k - 1)).1 (by omega)
  obtain ⟨j, rfl⟩ : ∃ j, k = j + 1 := ⟨k - 1, by omega⟩
  have hless : 2 ^ (j + 1) - 1 < 2 ^ j := hless
  have hj : 0 < 2 ^ j := Nat.two_pow_pos j
  rw [Nat.pow_succ] at hless
  omega

theorem bytesLog_eq (k : Nat) : bytesLog (8 * 2 ^ k) = k := by
  have hbytes : ((8 * 2 ^ k : Int).tdiv 8 - 1).toNat = 2 ^ k - 1 := by
    have hcast : ((2 ^ k : Nat) : Int) = 2 ^ k := by push_cast; rfl
    rw [Int.mul_tdiv_cancel_left _ (by decide), ← hcast]
    omega
  rw [bytesLog, hbytes, bitLength_pred_two_pow]

variable {level : Nat}

theorem width_countdown (hl : level < signedBound) :
    BitRange.width (some (BitRange.vector (countdownWidth level))) =
      .ok (countdownWidth level : Int) := by
  obtain ⟨hpos, hle, -⟩ := countdownWidth_le hl
  have hbound : (64 : Int) < signedBound := by decide
  exact BitRange.width_vector (by omega) (by omega)

theorem generated_countdown {o : Options} {program : Program} {parts : Parts} {task : Task}
    {m : Module} (h : (generateTask o program parts task).2 = .ok m) :
    (∃ s ∈ m.signals, s.name = countdownReg) ∧ ∀ s ∈ m.signals, s.name = countdownReg →
      s.range = some (BitRange.vector (countdownWidth o.registerLevel)) := by
  obtain ⟨insts, items, -, hadd, hlayout⟩ := generateTask_layout h
  have hsignals : m.signals = signalsOf items := by
    rw [Module.addAll_eq hadd, Module.signals_pushAll]
    rfl
  have hcountdown := hlayout.signals (List.mem_map_of_mem (List.mem_cons_of_mem _ (.head _)))
  rw [hsignals]
  refine ⟨⟨_, mem_signalsOf.2 hcountdown, rfl⟩, fun s hs hname => ?_⟩
  rw [signal_unique (Module.nodup_of_addAll hadd).1 (mem_signalsOf.1 hs) hcountdown hname]

/-- The address of a buffer has the least width for its depth, the countdown has the least one for
the cycles that it counts, and the adapter of a memory is given the exact logarithm of its bytes.
No value of the countdown is cut: not the constant, not the width that is read off its range, and in
no run the value in its register when the drain begins. -/
theorem computed_widths_least :
    (∀ depth : Int, 1 ≤ depth → depth < signedBound →
      IsLeast {w : Nat | 1 ≤ w ∧ depth ≤ 2 ^ w} (bufferAddressWidth depth) ∧
      ∀ (name : String) (width : Int),
        (streamBuffer name width depth).params.find? (·.name == "ADDR_WIDTH") =
          some ⟨"ADDR_WIDTH", .literal (toString (bufferAddressWidth depth : Int))⟩) ∧
    (∀ level : Nat, IsLeast {c : Nat | 1 ≤ c ∧ level - 1 < 2 ^ c} (countdownWidth level)) ∧
    (∀ level < signedBound,
      BitRange.width (some (BitRange.vector (countdownWidth level))) =
        .ok (countdownWidth level : Int) ∧
      ∀ ρ, ((Expr.const (countdownWidth level) (drainCycles level).toUInt64).eval ρ).toNat =
        level - 1) ∧
    (∀ (o : Options) (program : Program) (parts : Parts) (task : Task) (m : Module),
      o.registerLevel < signedBound → (generateTask o program parts task).2 = .ok m →
      (∃ s ∈ m.signals, s.name = countdownReg) ∧
      (∀ s ∈ m.signals, s.name = countdownReg →
        BitRange.width s.range = .ok (countdownWidth o.registerLevel : Int)) ∧
      ∀ ds cs, simulate m ds = .ok cs → LeavesRegisters m ds → ∀ t < cs.length,
        valueAt cs t stateReg = 2 → (valueAt cs t countdownReg).toNat = o.registerLevel - 1) ∧
    ∀ (u : ChannelUse) (addressWidth : Int) (offset : Expr),
      (∃ j : Nat, u.dataWidth = 8 * 2 ^ j) → ∃ k : Nat, 8 * 2 ^ k = u.dataWidth ∧
      (channelAdapter addressWidth u offset).params.find? (·.name == "DataWidthBytesLog") =
        some ⟨"DataWidthBytesLog", .literal (toString k)⟩ := by
  refine ⟨fun depth hpos hdepth => ⟨isLeast_bufferAddressWidth hpos hdepth, ?buffer⟩,
    isLeast_countdownWidth, fun level hl => ⟨width_countdown hl, fun ρ => toNat_countdown hl⟩,
    fun o program parts task m hl h => ?generated, fun u addressWidth offset hu => ?adapter⟩
  case buffer =>
    intro name width
    rfl
  case generated =>
    obtain ⟨hdeclared, hrange⟩ := generated_countdown h
    refine ⟨hdeclared, fun s hs hname => ?_, fun ds cs hrun henv t ht hs => ?_⟩
    · rw [hrange s hs hname]
      exact width_countdown hl
    · obtain ⟨insts, items, c, -, -, hlayout, hc, -⟩ := generateTask_trace h hrun henv
      exact (hlayout.controls hc hl).count_of_drain ht hs
  case adapter =>
    obtain ⟨k, hk⟩ := hu
    refine ⟨k, hk.symm, ?_⟩
    have hlog : bytesLog u.dataWidth = k := by rw [hk, bytesLog_eq]
    rw [← hlog]
    rfl

/-- A buffer of 33 places, the controller of a composite at level 2, a memory of 64-bit words. -/
theorem computed_widths_least_demo :
    IsLeast {w : Nat | 1 ≤ w ∧ (33 : Int) ≤ 2 ^ w} 6 ∧
    BitRange.width (some (BitRange.vector (countdownWidth 5))) = .ok 3 ∧
    (∃ s ∈ demoModule.signals, s.name = countdownReg) ∧
    (∃ cs, simulate demoModule demoDrives = .ok cs ∧ valueAt cs 8 stateReg = 2 ∧
      (valueAt cs 8 countdownReg).toNat = 1) ∧
    ∃ k : Nat, 8 * 2 ^ k = (64 : Int) ∧
      (channelAdapter 64 ⟨"memory", 64, ["read_addr"]⟩ .absent).params.find?
        (·.name == "DataWidthBytesLog") = some ⟨"DataWidthBytesLog", .literal (toString k)⟩ := by
  obtain ⟨hbuffer, -, hcountdown, hgenerated, hadapter⟩ := computed_widths_least
  obtain ⟨hsix, -⟩ := hbuffer 33 (by decide) (by decide)
  obtain ⟨cs, hcs⟩ := demo_run
  obtain ⟨hdeclared, -, hrun⟩ := hgenerated demoOptions demoProgram demoParts demoTask demoModule
    (by decide) demo_generates
  have hstate : valueAt cs 8 stateReg = 2 := (hcs.shows (by decide)).composite
  refine ⟨hsix, (hcountdown 5 (by decide)).1, hdeclared, ⟨cs, hcs.run, hstate, ?_⟩,
    hadapter ⟨"memory", 64, ["read_addr"]⟩ 64 .absent ⟨3, by decide⟩⟩
  exact hrun demoDrives cs hcs.run demo_leaves 8 (by rw [hcs.length]; decide) hstate

end TaskLoom
