import Mathlib.Algebra.Order.Group.Abs
import Mathlib.Algebra.Order.Group.Int
import Mathlib.Algebra.Order.Group.Lattice
import TaskLoom.Hdl.Range
import TaskLoom.Proofs.Text.Bytes
import TaskLoom.Proofs.Text.Numerals

/-!
# The widths of ranges

`r.Bounded a b`: the bounds of the range `r` are the integers `a` and `b`.  Such a range has a
width, and any other range has none (`width_of_bounded`, `width_of_unbounded`).  The width is the
number of bits between the bounds, unless they are so many that it wraps around to zero or less
(`wrap64_count`, `pos_or_overlong`).  The ranges that are written for a number of bits are read back
as that number (`width_vector`, `width_bits`).
-/

namespace TaskLoom.BitRange

variable {r : BitRange} {a b : Int}

/-- The bounds of a range, without the blanks around them, are signed 64-bit integers. -/
structure Bounded (r : BitRange) (a b : Int) : Prop where
  msb : Numeral.IsInteger (Text.trim r.msb).toList a
  lsb : Numeral.IsInteger (Text.trim r.lsb).toList b
  msb_fits : fitsSigned a = true
  lsb_fits : fitsSigned b = true

/-- A range of more bits than a signed 64-bit integer can count. -/
def Overlong (r : Option BitRange) : Prop :=
  ∃ s a b, r = some s ∧ s.Bounded a b ∧ (signedBound : Int) ≤ |a - b| + 1

theorem span_eq (a b : Int) : span a b = wrap64 (|a - b| + 1) := by
  rw [span, max_sub_min_eq_abs']

theorem width_of_bounded (h : r.Bounded a b) : width (some r) = .ok (wrap64 (|a - b| + 1)) := by
  have ha := Numeral.int?_eq_some_iff.2 ⟨h.msb, h.msb_fits⟩
  have hb := Numeral.int?_eq_some_iff.2 ⟨h.lsb, h.lsb_fits⟩
  simp only [width, ha, hb, span_eq]

theorem width_of_unbounded (h : ∀ a b, ¬ r.Bounded a b) : width (some r) = .error ⟨r⟩ := by
  rw [width]
  split
  · rename_i a b ha hb
    obtain ⟨hmsb, hmsb'⟩ := Numeral.int?_eq_some_iff.1 ha
    obtain ⟨hlsb, hlsb'⟩ := Numeral.int?_eq_some_iff.1 hb
    exact absurd ⟨hmsb, hlsb, hmsb', hlsb'⟩ (h a b)
  · rfl

theorem exists_bounded {w : Int} (h : width (some r) = .ok w) : ∃ a b, r.Bounded a b := by
  by_contra hr
  rw [width_of_unbounded fun a b hab => hr ⟨a, b, hab⟩] at h
  cases h

theorem bits_between_le (h : r.Bounded a b) :
    1 ≤ |a - b| + 1 ∧ |a - b| + 1 ≤ (wordCount : Int) := by
  have ha := (fitsSigned_iff a).1 h.msb_fits
  have hb := (fitsSigned_iff b).1 h.lsb_fits
  have habs : |a - b| ≤ 2 * signedBound - 1 := abs_le.2 ⟨by omega, by omega⟩
  have hpos := abs_nonneg (a - b)
  have hcount : (wordCount : Int) = 2 * signedBound := rfl
  omega

/-- A number of bits is kept, or it is too large and becomes zero or less. -/
theorem wrap64_count {n : Int} (hpos : 1 ≤ n) (hle : n ≤ wordCount) :
    (n < signedBound → wrap64 n = n) ∧
      ((signedBound : Int) ≤ n → wrap64 n = n - wordCount ∧ wrap64 n ≤ 0) := by
  constructor
  · intro h
    exact wrap64_of_fits ((fitsSigned_iff n).2 ⟨by omega, h⟩)
  · intro h
    have hwrap : wrap64 n = n - wordCount := by
      unfold signedBound at h
      unfold wordCount at hle
      rw [wrap64, wordCount, Int.bmod_def]
      split <;> omega
    exact ⟨hwrap, by omega⟩

/-- The width of a declaration is positive unless its range is too long. -/
theorem pos_or_overlong {s : Option BitRange} {w : Int} (h : width s = .ok w) :
    0 < w ∨ Overlong s := by
  cases s with
  | none =>
    cases h
    exact .inl (by decide)
  | some r =>
    obtain ⟨a, b, hr⟩ := exists_bounded h
    rw [width_of_bounded hr] at h
    cases h
    by_cases hlong : (signedBound : Int) ≤ |a - b| + 1
    · exact .inr ⟨r, a, b, rfl, hr, hlong⟩
    · obtain ⟨hpos, hle⟩ := bits_between_le hr
      rw [(wrap64_count hpos hle).1 (by omega)]
      exact .inl hpos

theorem trim_digits {s : String} (h : ∀ c ∈ s.toList, c.isDigit = true) : Text.trim s = s := by
  have hblank (c : Char) (hc : c.isDigit = true) : Text.isBlank c = false := by
    have hrange : 48 ≤ c.toNat ∧ c.toNat ≤ 57 := by
      simpa [Char.isDigit, UInt32.le_iff_toNat_le] using hc
    unfold Text.isBlank
    simp
    omega
  exact Text.trim_of_ends (fun c hc => hblank c (h c (List.mem_of_mem_head? hc)))
    fun c hc => hblank c (h c (List.mem_of_mem_getLast? hc))

theorem isInteger_toString (n : Nat) :
    Numeral.IsInteger (Text.trim (toString (n : Int))).toList n := by
  have hdigits : (toString (n : Int)).toList = Nat.toDigits 10 n := Nat.toList_repr
  have hall : ∀ c ∈ (toString (n : Int)).toList, c.isDigit = true := by
    intro c hc
    rw [hdigits] at hc
    exact Nat.isDigit_of_mem_toDigits (by decide) (by decide) hc
  have hvalue := Numeral.IsInteger.plain ⟨by rw [hdigits]; exact Nat.toDigits_ne_nil, hall⟩
  rw [trim_digits hall]
  rwa [hdigits, Nat.ofDigitChars_toDigits (by decide) (by decide), ← hdigits] at hvalue

theorem bounded_vector {w : Int} (hpos : 1 ≤ w) (hw : w < signedBound) :
    (vector w).Bounded (w - 1) 0 := by
  obtain ⟨n, hn⟩ : ∃ n : Nat, w - 1 = n := ⟨(w - 1).toNat, by omega⟩
  have hmsb : (vector w).msb = toString (n : Int) := by
    rw [vector, if_neg (by omega), hn]
  constructor
  · rw [hmsb, hn]
    exact isInteger_toString n
  · exact isInteger_toString 0
  · rw [fitsSigned_iff]
    omega
  · rfl

theorem width_vector {w : Int} (hpos : 1 ≤ w) (hw : w < signedBound) :
    width (some (vector w)) = .ok w := by
  rw [width_of_bounded (bounded_vector hpos hw), Int.sub_zero, abs_of_nonneg (by omega),
    Int.sub_add_cancel]
  exact congrArg _ (wrap64_of_fits ((fitsSigned_iff w).2 ⟨by omega, hw⟩))

theorem width_bits {w : Int} (hpos : 1 ≤ w) (hw : w < signedBound) : width (bits w) = .ok w := by
  unfold bits
  split
  · obtain rfl : w = 1 := by omega
    rfl
  · exact width_vector hpos hw

end TaskLoom.BitRange
