/-!
# Machine words

Widths and depths are signed 64-bit integers: sums that leave that range wrap around.
-/

namespace TaskLoom

/-- The number of 64-bit words, which is `2 ^ 64`. -/
def wordCount : Nat := 0x10000000000000000

/-- The least number above all signed 64-bit integers, which is `2 ^ 63`. -/
def signedBound : Nat := 0x8000000000000000

/-- Whether an integer is a signed 64-bit integer. -/
def fitsSigned (x : Int) : Bool := -(signedBound : Int) ≤ x && x < signedBound

/-- The signed 64-bit value of an integer: the representative modulo `wordCount` among the signed
64-bit integers. -/
def wrap64 (x : Int) : Int := Int.bmod x wordCount

/-- The number of binary digits of `n`, none for zero. -/
def bitLength (n : Nat) : Nat := if n = 0 then 0 else Nat.log2 n + 1

theorem fitsSigned_iff (x : Int) : fitsSigned x ↔ -(signedBound : Int) ≤ x ∧ x < signedBound := by
  simp [fitsSigned]

theorem wrap64_of_fits {x : Int} (h : fitsSigned x) : wrap64 x = x := by
  have ⟨lo, hi⟩ := (fitsSigned_iff x).1 h
  unfold signedBound at lo hi
  unfold wrap64 wordCount
  rw [Int.bmod_eq_of_le] <;> omega

/-- `bitLength n` is the least number of bits that hold `n`. -/
theorem bitLength_le_iff (n k : Nat) : bitLength n ≤ k ↔ n < Nat.pow 2 k := by
  unfold bitLength
  split
  · subst n
    exact iff_of_true (Nat.zero_le k) (Nat.two_pow_pos k)
  · rename_i h
    exact Nat.succ_le_iff.trans (Nat.log2_lt h)

end TaskLoom
