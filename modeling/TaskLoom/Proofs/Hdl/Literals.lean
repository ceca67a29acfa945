import Mathlib.Algebra.Group.Nat.Defs
import Mathlib.Data.List.TakeDrop
import Mathlib.Data.List.TakeWhile
import TaskLoom.Hdl.Expr
import TaskLoom.Proofs.Hdl.Locality
import TaskLoom.Proofs.Simulation.Settle
import TaskLoom.Proofs.Text.Numerals

/-!
# Constants and literals have one value

A literal with a tick has the value behind the tick, cut to the width in front of it (`read_parts`).
So a constant is read back from its text with its own value, whatever base it is written in
(`read_constText`), and the lenient reader gives a complete sized literal the value that the strict
one found, cut to its width (`read_of_sized`).

Main statement: a constant has the value of its text exactly if it is not one of width zero with
another value than zero (`Expr.constant_read_iff`).
-/

namespace TaskLoom

namespace Literal

theorem withoutUnderscores_eq {cs : List Char} (h : '_' ∉ cs) : withoutUnderscores cs = cs :=
  List.filter_eq_self.2 fun c hc => by
    rw [bne_iff_ne]
    rintro rfl
    exact h hc

theorem splitTick?_append {before : List Char} (after : List Char) (h : '\'' ∉ before) :
    splitTick? (before ++ '\'' :: after) = some (before, after) := by
  have hbefore : ∀ c ∈ before, (c != '\'') = true := by
    intro c hc
    rw [bne_iff_ne]
    rintro rfl
    exact h hc
  simp [splitTick?, List.span_eq_takeWhile_dropWhile, List.takeWhile_append_of_pos hbefore,
    List.dropWhile_append_of_pos hbefore]

theorem eq_of_splitTick? {cs before after : List Char} (h : splitTick? cs = some (before, after)) :
    cs = before ++ '\'' :: after ∧ '\'' ∉ before := by
  unfold splitTick? at h
  rw [List.span_eq_takeWhile_dropWhile] at h
  cases hrest : cs.dropWhile (· != '\'') with
  | nil =>
    rw [hrest] at h
    cases h
  | cons c rest =>
    rw [hrest] at h
    cases h
    have hc := List.head?_dropWhile_not (· != '\'') cs
    rw [hrest] at hc
    obtain rfl : c = '\'' := by simpa using hc
    refine ⟨?_, fun hmem => by simpa using List.mem_takeWhile_imp hmem⟩
    rw [← hrest, List.takeWhile_append_dropWhile]

/-- Marks of signed numbers, which stand in front of the letter of the base. -/
def isSignMark (c : Char) : Bool := c == 's' || c == 'S'

/-- The value of a literal with a tick. -/
theorem read_parts {s : String} {before after : List Char} {n : Nat}
    (hs : withoutUnderscores s.toList = before ++ '\'' :: after) (htick : '\'' ∉ before)
    (hn : basedValue? (after.dropWhile isSignMark) = some n) :
    read s = .ok (match Numeral.signed before with
      | .ok w => mask n.toUInt64 w
      | .error _ => n.toUInt64) := by
  change basedValue? (after.dropWhile fun c => c == 's' || c == 'S') = some n at hn
  simp only [read, hs, splitTick?_append after htick, hn]
  cases Numeral.signed before <;> rfl

theorem basedValue?_digits {letter : Char} {base n : Nat} {digits : List Char}
    (hletter : baseOf? letter = some base) (hn : Numeral.unsigned base digits = .ok n) :
    basedValue? (letter :: digits) = some n := by
  have hascii : letter.toNat < 128 := by
    unfold baseOf? at hletter
    split at hletter
    · rename_i h
      rcases h with rfl | rfl <;> decide
    split at hletter
    · rename_i h
      rcases h with rfl | rfl <;> decide
    split at hletter
    · rename_i h
      rcases h with rfl | rfl <;> decide
    split at hletter
    · rename_i h
      rcases h with rfl | rfl <;> decide
    · cases hletter
  rw [basedValue?, if_neg (by omega), hletter, Option.getD_some, hn]
  rfl

theorem digits_clean {base n : Nat} (hbase : 0 < base) (hbase' : base ≤ 10) {c : Char}
    (hc : c ∈ Nat.toDigits base n) : c ≠ '_' ∧ c ≠ '\'' := by
  have hdigit := Nat.isDigit_of_mem_toDigits hbase hbase' hc
  constructor
  all_goals
    rintro rfl
    revert hdigit
    decide

/-- Digits behind a tick and the letter of their base. -/
theorem read_digits {s : String} (before : List Char) (letter : Char) (base zeros : Nat)
    {v : UInt64} (hs : s.toList = before ++
      '\'' :: letter :: (List.replicate zeros '0' ++ Nat.toDigits base v.toNat))
    (hbefore : ∀ c ∈ before, c ≠ '_' ∧ c ≠ '\'') (hletter : baseOf? letter = some base)
    (hplain : letter ≠ '_' ∧ isSignMark letter = false) (hbase : 1 < base) (hbase' : base ≤ 10) :
    read s = .ok (match Numeral.signed before with
      | .ok w => mask v w
      | .error _ => v) := by
  have hclean : '_' ∉ before ++
      '\'' :: letter :: (List.replicate zeros '0' ++ Nat.toDigits base v.toNat) := by
    rw [List.mem_append, List.mem_cons, List.mem_cons, List.mem_append, not_or, not_or, not_or,
      not_or]
    refine ⟨fun h => (hbefore _ h).1 rfl, by decide, Ne.symm hplain.1, fun h => ?_,
      fun h => (digits_clean (by omega) hbase' h).1 rfl⟩
    exact absurd (List.eq_of_mem_replicate h) (by decide)
  have hvalue := basedValue?_digits hletter
    (Numeral.unsigned_toDigits hbase (by omega) v.toNat_lt zeros)
  have hread := read_parts (s := s) (by rw [hs, withoutUnderscores_eq hclean])
    (fun h => (hbefore _ h).2 rfl)
    (by rw [List.dropWhile_cons_of_neg (by simp [hplain.2])]; exact hvalue)
  have hword : v.toNat.toUInt64 = v := UInt64.ofNat_toNat
  rwa [hword] at hread

/-- A constant is read back from its text, cut to its width unless it has none. -/
theorem read_constText (width : Int) (v : UInt64) :
    read (Expr.constText width v) = .ok (if width ≤ 0 then v else mask v width) := by
  unfold Expr.constText
  split
  · rename_i hwidth
    exact read_digits (v := v) [] 'd' 10 0 (by simp) (by simp) rfl (by decide) (by decide)
      (by decide)
  · rename_i hwidth
    obtain ⟨w, rfl⟩ := Int.eq_ofNat_of_zero_le (a := width) (by omega)
    have hshown : toString (w : Int) = toString w := rfl
    -- a width that is no machine integer is larger than every word
    have hmask : (match Numeral.signed (Nat.toDigits 10 w) with
        | .ok k => mask v k
        | .error _ => v) = mask v w := by
      rw [Numeral.signed_toDigits]
      by_cases hw : w < signedBound
      · rw [if_pos hw]
      · have hlarge : 64 ≤ w := Nat.le_trans (by decide) (Nat.le_of_not_lt hw)
        rw [if_neg hw, mask, if_pos (by omega)]
    rw [hshown, ← hmask]
    have hclean : ∀ c ∈ Nat.toDigits 10 w, c ≠ '_' ∧ c ≠ '\'' := fun c hc =>
      digits_clean (by decide) (by decide) hc
    split
    · refine read_digits _ 'b' 2 (w - (Nat.toDigits 2 v.toNat).length) ?_ hclean rfl (by decide)
        (by decide) (by decide)
      simp
    · refine read_digits _ 'd' 10 0 ?_ hclean rfl (by decide) (by decide) (by decide)
      simp

/-! ### Complete sized literals -/

/-- The parts of a complete sized literal. -/
structure Sized (s : String) (c : SizedLiteral) (before marks : List Char) (letter : Char)
    (digits : List Char) (base n : Nat) : Prop where
  chars : s.toList = before ++ '\'' :: (marks ++ letter :: digits)
  tick : '\'' ∉ before
  width : Numeral.signed before = .ok c.width
  positive : 0 < c.width
  fits : c.width ≤ 64
  marks : ∀ m ∈ marks, isSignMark m = true
  letter : baseOf? letter = some base
  digits : Numeral.unsigned base (withoutUnderscores digits) = .ok n
  value : c.value = n.toUInt64

/-- At most one mark of each case is dropped. -/
theorem marks_of_dropOne (cs : List Char) : ∃ marks, cs = marks ++ dropOne 'S' (dropOne 's' cs) ∧
    ∀ m ∈ marks, isSignMark m = true := by
  have hone (x : Char) (hx : isSignMark x = true) (ds : List Char) :
      ∃ marks, ds = marks ++ dropOne x ds ∧ ∀ m ∈ marks, isSignMark m = true := by
    cases ds with
    | nil => exact ⟨[], rfl, by simp⟩
    | cons d ds =>
      by_cases hd : d = x
      · exact ⟨[d], by simp [dropOne, hd], by simp [hd, hx]⟩
      · exact ⟨[], by simp [dropOne, hd], by simp⟩
  obtain ⟨first, hfirst, hfirst'⟩ := hone 's' rfl cs
  obtain ⟨second, hsecond, hsecond'⟩ := hone 'S' rfl (dropOne 's' cs)
  refine ⟨first ++ second, ?_, fun m hm => (List.mem_append.1 hm).elim (hfirst' m) (hsecond' m)⟩
  rw [List.append_assoc, ← hsecond, ← hfirst]

theorem sized_parts {s : String} {c : SizedLiteral} (h : sized? s = some c) :
    ∃ before marks letter digits base n, Sized s c before marks letter digits base n := by
  unfold sized? at h
  obtain ⟨⟨before, after⟩, hsplit, h⟩ := Option.bind_eq_some_iff.1 h
  obtain ⟨width, hwidth, h⟩ := Option.bind_eq_some_iff.1 h
  obtain ⟨⟨⟩, hrange, h⟩ := Option.bind_eq_some_iff.1 h
  have hrange : 0 < width ∧ width ≤ 64 := by simpa [guard] using hrange
  obtain ⟨hchars, htick⟩ := eq_of_splitTick? hsplit
  obtain ⟨marks, hmarks, hsigns⟩ := marks_of_dropOne after
  split at h
  · cases h
  · rename_i letter digits hrest
    obtain ⟨base, hbase, h⟩ := Option.bind_eq_some_iff.1 h
    obtain ⟨n, hn, h⟩ := Option.bind_eq_some_iff.1 h
    cases h
    rw [hrest] at hmarks
    exact ⟨before, marks, letter, digits, base, n, by rw [hchars, hmarks], htick,
      Source.toOption_eq_some.1 hwidth, hrange.1, hrange.2, hsigns, hbase,
      Source.toOption_eq_some.1 hn, rfl⟩

/-- The lenient reader takes a complete sized literal for the value that the strict one finds, cut
to its width. -/
theorem read_of_sized {s : String} {c : SizedLiteral} (h : sized? s = some c) :
    read s = .ok (mask c.value c.width) := by
  obtain ⟨before, marks, letter, digits, base, n, h⟩ := sized_parts h
  have hplain : letter ≠ '_' ∧ isSignMark letter = false := by
    constructor
    · rintro rfl
      cases h.letter
    · by_contra hmark
      rw [Bool.not_eq_false, isSignMark, Bool.or_eq_true, beq_iff_eq, beq_iff_eq] at hmark
      have hletter := h.letter
      rcases hmark with rfl | rfl <;> cases hletter
  have hmarks : '_' ∉ marks := fun hmem => absurd (h.marks _ hmem) (by decide)
  have hbefore := Numeral.underscore_not_mem_of_signed h.width
  have hchars : withoutUnderscores s.toList =
      before ++ '\'' :: (marks ++ letter :: withoutUnderscores digits) := by
    have hkept (cs : List Char) (hcs : '_' ∉ cs) : cs.filter (· != '_') = cs :=
      withoutUnderscores_eq hcs
    simp [h.chars, withoutUnderscores, hkept before hbefore, hkept marks hmarks, hplain.1]
  have hvalue : basedValue? ((marks ++ letter :: withoutUnderscores digits).dropWhile isSignMark) =
      some n := by
    rw [List.dropWhile_append_of_pos h.marks, List.dropWhile_cons_of_neg (by simp [hplain.2])]
    exact basedValue?_digits h.letter h.digits
  rw [read_parts hchars h.tick hvalue, h.width, h.value]

theorem toNat_mask_sized {s : String} {c : SizedLiteral} (h : sized? s = some c) :
    (mask c.value c.width).toNat = c.value.toNat % 2 ^ c.width.toNat := by
  obtain ⟨_, _, _, _, _, _, h⟩ := sized_parts h
  have hpos := h.positive
  have hfits := h.fits
  have hwidth : c.width = (c.width.toNat : Int) := by omega
  rw [hwidth, toNat_mask _ (by omega)]
  rfl

end Literal

namespace Expr

/-- A constant is read without a failure from its text, and the text has its value exactly if it is
not a constant of width zero with a value other than zero: the width zero leaves the text unsized,
but leaves nothing of the value. -/
theorem constant_read_iff (ρ : Env) (width : Int) (v : UInt64) :
    Literal.read (text (.const width v)) = .ok (eval ρ (.literal (text (.const width v)))) ∧
      (eval ρ (.const width v) = eval ρ (.literal (text (.const width v))) ↔
        (width = 0 → v = 0)) := by
  have hread : Literal.read (text (.const width v)) =
      .ok (if width ≤ 0 then v else Literal.mask v width) := by
    rw [text]
    exact Literal.read_constText width v
  have hvalue : eval ρ (.literal (text (.const width v))) =
      if width ≤ 0 then v else Literal.mask v width := by
    rw [eval, Literal.value, hread]
  refine ⟨by rw [hread, hvalue], ?_⟩
  rw [hvalue, eval]
  by_cases hpos : 0 < width
  · rw [if_neg (by omega)]
    exact iff_of_true rfl fun h => by omega
  · rw [if_pos (by omega)]
    by_cases hzero : width = 0
    · subst hzero
      have hnone : Literal.mask v 0 = 0 := UInt64.and_zero
      rw [hnone]
      exact ⟨fun h _ => h.symm, fun h => (h rfl).symm⟩
    · have hall : Literal.mask v width = v := if_pos (.inl (by omega))
      rw [hall]
      exact iff_of_true rfl fun h => absurd h hzero

/-- The constant 5 of width zero has the value zero, and its text, which is unsized, the value 5. -/
theorem constant_of_width_zero : ∃ ρ, eval ρ (.const 0 5) = 0 ∧ text (.const 0 5) = "'d5" ∧
    eval ρ (.literal (text (.const 0 5))) = 5 := by
  have htext : text (.const 0 5) = "'d5" := by decide
  refine ⟨⟨fun _ => 0, fun _ => 0⟩, ?_, htext, ?_⟩
  · decide
  · rw [htext]
    decide

end Expr

end TaskLoom
