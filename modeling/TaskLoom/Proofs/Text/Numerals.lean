import TaskLoom.Text.Numeral

/-!
# Numerals are read back

Digits are read one after the other, so a digit sequence is read in pieces (`extend_append`).  With
the recursion of `Nat.toDigits` this gives what the digits of a number are read as: the number
itself, unless it is too large (`extend_toDigits`).  In the other direction, the texts that are read
are decimal integers with an optional sign (`signed_eq_ok_iff`).
-/

namespace TaskLoom.Numeral

variable {base limit n : Nat}

/-- The digits of a second piece go on from the value of the first one. -/
theorem extend_append (base limit n : Nat) (xs ys : List Char) :
    extend base limit n (xs ++ ys) = (extend base limit n xs).bind (extend base limit · ys) := by
  induction xs generalizing n with
  | nil => rfl
  | cons c xs ih =>
    simp only [List.cons_append, extend]
    cases digitValue? c with
    | none => rfl
    | some d =>
      simp only
      split
      · rfl
      · split
        · rfl
        · exact ih _

theorem digitValue?_digitChar (h : n < 16) : digitValue? n.digitChar = some n := by
  have hall : ∀ k < 16, digitValue? (Nat.digitChar k) = some k := by decide
  exact hall n h

theorem extend_digitChar (hbase : base ≤ 16) {d : Nat} (hd : d < base) :
    extend base limit n [d.digitChar] =
      if n * base + d < limit then .ok (n * base + d) else .error .outOfRange := by
  rw [extend, digitValue?_digitChar (by omega)]
  simp only [if_neg (Nat.not_le_of_lt hd)]
  by_cases h : n * base + d < limit
  · rw [if_neg (by omega), if_pos h, extend]
  · rw [if_pos (by omega), if_neg h]

/-- The digits of a number are read as that number, if it stays below the limit. -/
theorem extend_toDigits (hbase : 1 < base) (hbase' : base ≤ 16) (limit n : Nat) :
    extend base limit 0 (Nat.toDigits base n) =
      if n < limit then .ok n else .error .outOfRange := by
  induction n using Nat.strongRecOn with
  | _ n ih =>
    by_cases hn : n < base
    · rw [Nat.toDigits_of_lt_base hn, extend_digitChar hbase' hn, Nat.zero_mul, Nat.zero_add]
    · have hsplit : n / base * base + n % base = n := Nat.div_add_mod' n base
      have hless : n / base < n := Nat.div_lt_self (by omega) hbase
      rw [Nat.toDigits_of_base_le hbase (by omega), extend_append, ih _ hless]
      by_cases hlimit : n / base < limit
      · rw [if_pos hlimit, Except.bind, extend_digitChar hbase' (Nat.mod_lt _ (by omega)), hsplit]
      · -- the front digits are already too large
        rw [if_neg hlimit, Except.bind, if_neg (by omega)]

theorem extend_zeros (hbase : 0 < base) (hlimit : 0 < limit) (k : Nat) (cs : List Char) :
    extend base limit 0 (List.replicate k '0' ++ cs) = extend base limit 0 cs := by
  induction k with
  | zero => rfl
  | succ k ih =>
    have hzero : digitValue? '0' = some 0 := by decide
    rw [List.replicate_succ, List.cons_append, extend, hzero]
    simp only [Nat.zero_mul, Nat.zero_add]
    rw [if_neg (by omega), if_neg (by omega), ih]

/-- The digits of a word, after any number of zeros. -/
theorem unsigned_toDigits (hbase : 1 < base) (hbase' : base ≤ 16) (hn : n < wordCount) (zeros : Nat) :
    unsigned base (List.replicate zeros '0' ++ Nat.toDigits base n) = .ok n := by
  have hne : (List.replicate zeros '0' ++ Nat.toDigits base n).isEmpty = false := by
    rw [List.isEmpty_eq_false_iff]
    exact List.append_ne_nil_of_right_ne_nil _ Nat.toDigits_ne_nil
  rw [unsigned, hne, if_neg Bool.false_ne_true, extend_zeros (by omega) (by decide),
    extend_toDigits hbase hbase', if_pos hn]

theorem splitSign_of_digit {cs : List Char} (h : ∀ c ∈ cs, c.isDigit = true) :
    splitSign cs = (false, cs) := by
  unfold splitSign
  split
  · exact absurd (h '-' List.mem_cons_self) (by decide)
  · exact absurd (h '+' List.mem_cons_self) (by decide)
  · rfl

/-- A number in decimal is read as itself, unless it is no signed 64-bit integer. -/
theorem signed_toDigits (n : Nat) : signed (Nat.toDigits 10 n) =
    if n < signedBound then .ok (n : Int) else .error .outOfRange := by
  have hsign : splitSign (Nat.toDigits 10 n) = (false, Nat.toDigits 10 n) :=
    splitSign_of_digit fun c hc => Nat.isDigit_of_mem_toDigits (by decide) (by decide) hc
  have hne : (Nat.toDigits 10 n).isEmpty = false := by
    rw [List.isEmpty_eq_false_iff]
    exact Nat.toDigits_ne_nil
  have hbound : signedBound < wordCount := by decide
  unfold signed unsigned
  rw [hsign]
  simp only [hne, Bool.false_eq_true, if_false]
  rw [extend_toDigits (by decide) (by decide)]
  by_cases hword : n < wordCount
  · rw [if_pos hword]
    rfl
  · rw [if_neg hword, if_neg (by omega)]
    rfl

/-- Decimal digits, at least one of them. -/
structure IsDigits (cs : List Char) : Prop where
  nonempty : cs ≠ []
  digits : ∀ c ∈ cs, c.isDigit = true

/-- A text as a decimal integer with an optional sign, of any size. -/
inductive IsInteger : List Char → Int → Prop where
  | plain {ds : List Char} (h : IsDigits ds) : IsInteger ds (Nat.ofDigitChars 10 ds 0)
  | plus {ds : List Char} (h : IsDigits ds) : IsInteger ('+' :: ds) (Nat.ofDigitChars 10 ds 0)
  | minus {ds : List Char} (h : IsDigits ds) :
    IsInteger ('-' :: ds) (-(Nat.ofDigitChars 10 ds 0 : Int))

theorem digitValue?_decimal_iff {c : Char} {d : Nat} :
    digitValue? c = some d ∧ d < 10 ↔ c.isDigit = true ∧ d = c.toNat - 48 := by
  have hdigit : c.isDigit = true ↔ '0' ≤ c ∧ c ≤ '9' := by
    simp [Char.isDigit, Char.le_def]
  have hnine : c ≤ '9' → c.toNat ≤ 57 := by simp [Char.le_def, UInt32.le_iff_toNat_le]
  have hlower : 'a' ≤ c → 97 ≤ c.toNat := by simp [Char.le_def, UInt32.le_iff_toNat_le]
  have hupper : 'A' ≤ c → 65 ≤ c.toNat := by simp [Char.le_def, UInt32.le_iff_toNat_le]
  rw [hdigit]
  unfold digitValue?
  by_cases h : '0' ≤ c ∧ c ≤ '9'
  · have := hnine h.2
    rw [if_pos h, Option.some.injEq]
    constructor
    · rintro ⟨rfl, -⟩
      exact ⟨h, rfl⟩
    · rintro ⟨-, rfl⟩
      exact ⟨rfl, by omega⟩
  · -- a letter stands for ten or more
    rw [if_neg h]
    refine iff_of_false ?_ fun hc => h hc.1
    rintro ⟨hd, hten⟩
    split at hd
    · rename_i hc
      have := hlower hc.1
      cases hd
      omega
    · split at hd
      · rename_i hc
        have := hupper hc.1
        cases hd
        omega
      · cases hd

theorem le_ofDigitChars (n : Nat) (cs : List Char) : n ≤ Nat.ofDigitChars 10 cs n := by
  rw [Nat.ofDigitChars_eq_ofDigitChars_zero]
  have := Nat.le_mul_of_pos_left n (Nat.pow_pos (n := cs.length) (show 0 < 10 by decide))
  omega

/-- Digits are read up to a limit that their value stays below; all values on the way do then. -/
theorem extend_eq_ok_iff {m : Nat} {cs : List Char} (hn : n < limit) :
    extend 10 limit n cs = .ok m ↔
      (∀ c ∈ cs, c.isDigit = true) ∧ m = Nat.ofDigitChars 10 cs n ∧ m < limit := by
  induction cs generalizing n with
  | nil =>
    rw [extend, Nat.ofDigitChars_nil, Except.ok.injEq]
    constructor
    · rintro rfl
      exact ⟨by simp, rfl, hn⟩
    · rintro ⟨-, rfl, -⟩
      rfl
  | cons c cs ih =>
    rw [extend, Nat.ofDigitChars_cons, List.forall_mem_cons]
    by_cases hc : c.isDigit = true
    · obtain ⟨hvalue, hten⟩ := digitValue?_decimal_iff.2 ⟨hc, rfl⟩
      have hstep : n * 10 + (c.toNat - 48) = 10 * n + (c.toNat - '0'.toNat) := by
        rw [Nat.mul_comm]
        rfl
      simp only [hvalue]
      rw [if_neg (by omega), hstep]
      by_cases hlimit : limit ≤ 10 * n + (c.toNat - '0'.toNat)
      · -- the digits so far are already too large
        rw [if_pos hlimit]
        have hgrow := le_ofDigitChars (10 * n + (c.toNat - '0'.toNat)) cs
        refine iff_of_false (by simp) ?_
        rintro ⟨-, rfl, hm⟩
        omega
      · rw [if_neg hlimit, ih (by omega)]
        simp [hc]
    · refine iff_of_false (fun h => ?_) fun h => hc h.1.1
      cases hvalue : digitValue? c with
      | none =>
        rw [hvalue] at h
        cases h
      | some d =>
        simp only [hvalue] at h
        split at h
        · cases h
        · exact hc (digitValue?_decimal_iff.1 ⟨hvalue, by omega⟩).1

theorem unsigned_eq_ok_iff {m : Nat} {cs : List Char} :
    unsigned 10 cs = .ok m ↔ IsDigits cs ∧ m = Nat.ofDigitChars 10 cs 0 ∧ m < wordCount := by
  unfold unsigned
  cases cs with
  | nil => exact iff_of_false (by simp) fun h => h.1.nonempty rfl
  | cons c cs =>
    rw [if_neg (by simp), extend_eq_ok_iff (by decide)]
    constructor
    · rintro ⟨hdigits, hm⟩
      exact ⟨⟨by simp, hdigits⟩, hm⟩
    · rintro ⟨h, hm⟩
      exact ⟨h.digits, hm⟩

theorem withSign_eq_ok_iff {negative : Bool} {x : Int} :
    withSign negative n = .ok x ↔
      x = (if negative then -(n : Int) else n) ∧ fitsSigned x = true := by
  rw [fitsSigned_iff]
  unfold withSign signedBound
  cases negative <;> simp only [if_true, if_false, Bool.false_eq_true] <;> split <;>
    simp only [Except.ok.injEq, reduceCtorEq, false_iff] <;> omega

/-- Exactly the decimal integers that are signed 64-bit integers are read, each as itself. -/
theorem signed_eq_ok_iff {cs : List Char} {x : Int} :
    signed cs = .ok x ↔ IsInteger cs x ∧ fitsSigned x = true := by
  have hparts : signed cs = .ok x ↔
      ∃ m, unsigned 10 (splitSign cs).2 = .ok m ∧ withSign (splitSign cs).1 m = .ok x := by
    unfold signed
    cases splitSign cs with
    | mk negative ds =>
      simp only
      cases unsigned 10 ds with
      | ok m => simp [bind, Except.bind]
      | error e => simp [bind, Except.bind]
  -- what fits with its sign has a magnitude below the limit of the digits
  have hword {m : Nat} (negative : Bool) (hm : fitsSigned (if negative then -(m : Int) else m)) :
      m < wordCount := by
    rw [fitsSigned_iff] at hm
    unfold signedBound at hm
    unfold wordCount
    split at hm <;> omega
  rw [hparts]
  simp only [unsigned_eq_ok_iff, withSign_eq_ok_iff]
  constructor
  · rintro ⟨m, ⟨hdigits, rfl, -⟩, rfl, hfits⟩
    refine ⟨?_, hfits⟩
    unfold splitSign at hdigits ⊢
    split at hdigits
    · exact .minus hdigits
    · exact .plus hdigits
    · exact .plain hdigits
  · rintro ⟨hx, hfits⟩
    cases hx with
    | plain h =>
      rw [splitSign_of_digit h.digits]
      exact ⟨_, ⟨h, rfl, hword false hfits⟩, rfl, hfits⟩
    | plus h => exact ⟨_, ⟨h, rfl, hword false hfits⟩, rfl, hfits⟩
    | minus h => exact ⟨_, ⟨h, rfl, hword true hfits⟩, rfl, hfits⟩

/-- A text that is read as a signed integer has no underscore. -/
theorem underscore_not_mem_of_signed {cs : List Char} {x : Int} (h : signed cs = .ok x) :
    '_' ∉ cs := by
  have hdigits {ds : List Char} (hd : IsDigits ds) : '_' ∉ ds := fun hmem =>
    absurd (hd.digits '_' hmem) (by decide)
  cases (signed_eq_ok_iff.1 h).1 with
  | plain hd => exact hdigits hd
  | plus hd => simp [hdigits hd]
  | minus hd => simp [hdigits hd]

theorem int?_eq_some_iff {s : String} {x : Int} :
    int? s = some x ↔ IsInteger s.toList x ∧ fitsSigned x = true := by
  rw [int?, ← signed_eq_ok_iff]
  cases signed s.toList <;> simp [Except.toOption]

end TaskLoom.Numeral
