import TaskLoom.Proofs.Hdl.Inert

/-!
# Scanning a source up to a token

`Scanned q start s s' e`: before the end `q` of a source, blanking out goes through the piece `s`
from ordinary text to ordinary text and makes it `s'`.  It does the same before another end, if both
ends begin with the same word byte and no attribute is closed that was open (`Scanned.swap`).  If
the strings of a source are closed on their lines, blanking out is in ordinary text in front of
every token (`exists_scanned`): no comment begins or ends inside a token.
-/

namespace TaskLoom.Source

/-- Blanking out goes through the piece `s` before the end `q` of a source, from ordinary text to
ordinary text, and makes it `s'`.  The flags tell whether only blanks stand on the line so far,
before the piece and behind it. -/
inductive Scanned (q : List UInt8) : Bool → List UInt8 → List UInt8 → Bool → Prop where
  | nil (start : Bool) : Scanned q start [] [] start
  | plain {start e : Bool} {b : UInt8} {s s' : List UInt8} (h : treatment start b (s ++ q) = .plain)
    (hs : Scanned q (b == newline || (isSpace b && start)) s s' e) :
    Scanned q start (b :: s) (b :: s') e
  | erased {start e : Bool} {b : UInt8} {l s s' : List UInt8}
    (h : treatment start b (l ++ (s ++ q)) = .erase l.length) (hs : Scanned q start s s' e) :
    Scanned q start (b :: (l ++ s)) ((b :: l).map blanked ++ s') e
  | quoted {start e : Bool} {l s s' : List UInt8} (h : Quotable l) (hs : Scanned q false s s' e) :
    Scanned q start (ascii '"' :: (l ++ ascii '"' :: s)) (ascii '"' :: (l ++ ascii '"' :: s')) e

theorem treatment_copy {start : Bool} {b : UInt8} {bs : List UInt8} {n : Nat}
    (h : treatment start b bs = .copy n) : b = ascii '"' := by
  by_contra hb
  rw [treatment, if_neg (by simpa using hb)] at h
  split_ifs at h
  all_goals
    revert h
    split <;> simp

theorem treatment_quote (start : Bool) (bs : List UInt8) :
    treatment start (ascii '"') bs = .copy (stringRest bs) := by
  rw [treatment, if_pos (by simp)]

theorem upTo?_bounds {x y : UInt8} {bs : List UInt8} {n : Nat} (h : upTo? x y bs = some n) :
    2 ≤ n ∧ n ≤ bs.length := by
  induction bs generalizing n with
  | nil => simp [upTo?] at h
  | cons b bs ih =>
    cases bs with
    | nil => simp [upTo?] at h
    | cons c bs =>
      rw [upTo?] at h
      split at h
      · obtain rfl := Option.some.inj h
        simp
      · obtain ⟨k, hk, rfl⟩ := Option.map_eq_some_iff.1 h
        have hbounds := ih hk
        rw [List.length_cons]
        omega

theorem restOfLine_le (bs : List UInt8) : restOfLine bs ≤ bs.length :=
  (List.takeWhile_prefix _).length_le

theorem treatment_erase_le {start : Bool} {b : UInt8} {bs : List UInt8} {n : Nat}
    (h : treatment start b bs = .erase n) : n ≤ bs.length := by
  have hline (hn : restOfLine bs = n) : n ≤ bs.length := hn ▸ restOfLine_le bs
  have hpair {x y : UInt8} {k : Nat} (hk : upTo? x y bs.tail = some k) (hn : 1 + k = n) :
      n ≤ bs.length := by
    have hbounds := upTo?_bounds hk
    rw [List.length_tail] at hbounds
    omega
  unfold treatment at h
  split_ifs at h
  · exact hline (Treatment.erase.inj h)
  · split at h
    · rename_i k hk
      exact hpair hk (Treatment.erase.inj h)
    · exact (Treatment.erase.inj h).symm.le
  · split at h
    · rename_i k hk
      exact hpair hk (Treatment.erase.inj h)
    · cases h
  · exact hline (Treatment.erase.inj h)

/-! ### One piece after the other -/

theorem stripFrom_string {l : List UInt8} (start : Bool) (rest : List UInt8) :
    stripFrom 0 (l.length + 1) start (l ++ ascii '"' :: rest) =
      l ++ ascii '"' :: stripFrom 0 0 false rest := by
  induction l generalizing start with
  | nil => rfl
  | cons b l ih => rw [List.length_cons, List.cons_append, stripFrom, ih, List.cons_append]

section
variable {q s s' t t' : List UInt8} {start e e' : Bool}

theorem Scanned.strip (h : Scanned q start s s' e) :
    stripFrom 0 0 start (s ++ q) = s' ++ stripFrom 0 0 e q := by
  induction h with
  | nil start => rfl
  | plain h _ ih => rw [List.cons_append, stripFrom, h, ih, List.cons_append]
  | @erased start e b l s s' h _ ih =>
    rw [List.cons_append, List.append_assoc, stripFrom, h]
    simp only
    rw [stripFrom_erased, ih, List.map_cons, List.cons_append, List.cons_append,
      List.append_assoc]
  | @quoted start e l s s' h _ ih =>
    rw [List.cons_append, List.append_assoc, List.cons_append, stripFrom, treatment_quote,
      stringRest_quoted h]
    simp only
    rw [stripFrom_string, ih, List.cons_append, List.append_assoc, List.cons_append]

theorem Scanned.length_eq (h : Scanned q start s s' e) : s'.length = s.length := by
  induction h with
  | nil start => rfl
  | plain _ _ ih => rw [List.length_cons, List.length_cons, ih]
  | erased _ _ ih => simp [ih]
  | quoted _ _ ih => simp [ih]

theorem Scanned.append (hs : Scanned (t ++ q) start s s' e) (ht : Scanned q e t t' e') :
    Scanned q start (s ++ t) (s' ++ t') e' := by
  induction hs with
  | nil start => exact ht
  | plain h _ ih =>
    rw [← List.append_assoc] at h
    exact .plain h (ih ht)
  | @erased start e b l s s' h _ ih =>
    rw [← List.append_assoc s] at h
    rw [List.append_assoc, List.cons_append, List.append_assoc]
    exact .erased h (ih ht)
  | @quoted start e l s s' h _ ih =>
    simp only [List.cons_append, List.append_assoc]
    exact .quoted h (ih ht)

end

/-! ### Another end of the source -/

theorem isWord_ne {b : UInt8} (h : isWord b = true) :
    b ≠ newline ∧ isSpace b = false ∧ b ≠ ascii '"' ∧ b ≠ ascii '/' ∧ b ≠ ascii '*' ∧
      b ≠ ascii '(' ∧ b ≠ ascii ')' ∧ b ≠ ascii '\\' ∧ b ≠ backtick := by
  have hspace : isSpace b = false := by
    by_contra hs
    simp only [isSpace, Bool.not_eq_false, Bool.or_eq_true, beq_iff_eq] at hs
    rcases hs with ((rfl | rfl) | rfl) | rfl <;> exact absurd h (by decide)
  refine ⟨?_, hspace, ?_, ?_, ?_, ?_, ?_, ?_, ?_⟩
  all_goals
    rintro rfl
    exact absurd h (by decide)

/-- A byte that begins no string, no comment, no attribute and no directive. -/
def isQuiet (b : UInt8) : Bool :=
  b != ascii '"' && b != ascii '/' && b != ascii '(' && b != backtick

theorem isQuiet_word {b : UInt8} (h : isWord b = true) : isQuiet b = true := by
  obtain ⟨-, -, hquote, hslash, -, hopen, -, -, htick⟩ := isWord_ne h
  simp [isQuiet, hquote, hslash, hopen, htick]

theorem treatment_quiet {start : Bool} {b : UInt8} (h : isQuiet b = true) (bs : List UInt8) :
    treatment start b bs = .plain := by
  simp only [isQuiet, Bool.and_eq_true, bne_iff_ne] at h
  obtain ⟨⟨⟨hquote, hslash⟩, hopen⟩, htick⟩ := h
  exact treatment_plain hquote htick fun y _ => ⟨fun hy => hslash hy.1, fun hy => hopen hy.1⟩

/-- Whether only blanks stand on the line behind some text. -/
def flagBehind : Bool → List UInt8 → Bool
  | start, [] => start
  | start, b :: l => flagBehind (b == newline || (isSpace b && start)) l

/-- Quiet bytes are ordinary text. -/
theorem scanned_quiet {l : List UInt8} (h : ∀ b ∈ l, isQuiet b = true) (q : List UInt8)
    (start : Bool) : Scanned q start l l (flagBehind start l) := by
  induction l generalizing start with
  | nil => exact .nil start
  | cons b l ih =>
    exact .plain (treatment_quiet (h b List.mem_cons_self) _)
      (ih (fun x hx => h x (List.mem_cons_of_mem _ hx)) _)

/-- In front of a quiet byte that is no blank it does not matter what stands on the line so far. -/
theorem Scanned.of_quiet {q s s' : List UInt8} {b : UInt8} {start e : Bool}
    (h : Scanned q start (b :: s) s' e) (hb : isQuiet b = true) (hspace : isSpace b = false)
    (start' : Bool) : Scanned q start' (b :: s) s' e := by
  cases h with
  | plain _ hs =>
    rw [hspace, Bool.false_and] at hs
    refine .plain (treatment_quiet hb _) ?_
    rwa [hspace, Bool.false_and]
  | erased h _ =>
    rw [treatment_quiet hb] at h
    cases h
  | quoted h _ => exact absurd hb (by decide)

section
variable {x y z : UInt8} {w q q' : List UInt8}

theorem upTo?_swap {n : Nat} (h : upTo? x y (w ++ q) = some n) (hn : n ≤ w.length) :
    upTo? x y (w ++ q') = some n := by
  induction w generalizing n with
  | nil =>
    have hbounds := upTo?_bounds h
    rw [List.length_nil] at hn
    omega
  | cons b w ih =>
    cases w with
    | nil =>
      have hbounds := upTo?_bounds h
      rw [List.length_singleton] at hn
      omega
    | cons c w =>
      simp only [List.cons_append, upTo?] at h ⊢
      split at h
      · rename_i hbc
        rwa [if_pos hbc]
      · rename_i hbc
        obtain ⟨k, hk, rfl⟩ := Option.map_eq_some_iff.1 h
        rw [List.length_cons, Nat.add_le_add_iff_right] at hn
        have ih := ih hk hn
        rw [List.cons_append] at ih
        rw [if_neg hbc, ih, Option.map_some]

theorem upTo?_cons_eq_none (hx : z ≠ x) : upTo? x y (z :: q) = none ↔ upTo? x y q = none := by
  cases q with
  | nil => simp [upTo?]
  | cons c q => simp [upTo?, hx]

/-- No pair stands in a text and before another end of it, if none stands in that end. -/
theorem upTo?_swap_none (hx : z ≠ x) (h : upTo? x y (w ++ z :: q) = none)
    (hq : upTo? x y q = none → upTo? x y q' = none) : upTo? x y (w ++ z :: q') = none := by
  induction w with
  | nil => exact (upTo?_cons_eq_none hx).2 (hq ((upTo?_cons_eq_none hx).1 h))
  | cons b w ih =>
    have hnext : (w ++ z :: q).head? = (w ++ z :: q').head? := by
      cases w <;> rfl
    cases hw : w ++ z :: q with
    | nil => simp at hw
    | cons c cs =>
      cases hw' : w ++ z :: q' with
      | nil => simp at hw'
      | cons c' cs' =>
        rw [hw, hw'] at hnext
        obtain rfl : c = c' := Option.some.inj hnext
        rw [List.cons_append, hw, upTo?] at h
        rw [List.cons_append, hw', upTo?]
        split at h
        · cases h
        · rename_i hbc
          rw [hw, hw'] at ih
          rw [if_neg hbc, ih (Option.map_eq_none_iff.1 h), Option.map_none]

theorem upTo?_suffix {l l' : List UInt8} (h : upTo? x y l = none) (hl : l' <:+ l) :
    upTo? x y l' = none := by
  obtain ⟨p, rfl⟩ := hl
  induction p with
  | nil => exact h
  | cons b p ih =>
    refine ih ?_
    rw [List.cons_append] at h
    cases hp : p ++ l' with
    | nil => rfl
    | cons c cs =>
      rw [hp, upTo?] at h
      split at h
      · cases h
      · exact Option.map_eq_none_iff.1 h

theorem restOfLine_swap (hz : z ≠ newline) (h : restOfLine (w ++ z :: q) ≤ w.length) :
    restOfLine (w ++ z :: q') = restOfLine (w ++ z :: q) := by
  unfold restOfLine at h ⊢
  rw [List.takeWhile_append] at h
  rw [List.takeWhile_append, List.takeWhile_append]
  split
  · rename_i hall
    rw [if_pos hall, List.takeWhile_cons_of_pos (by simpa using hz), List.length_append,
      List.length_cons] at h
    omega
  · rfl

theorem isWildcard_swap (hz : isSpace z = false) :
    isWildcard (w ++ z :: q') = isWildcard (w ++ z :: q) := by
  unfold isWildcard
  rw [List.dropWhile_append, List.dropWhile_append]
  split
  · rw [List.dropWhile_cons_of_neg (by simp [hz]), List.dropWhile_cons_of_neg (by simp [hz])]
    rfl
  · rename_i hne
    have hne' : w.dropWhile isSpace ≠ [] := by simpa using hne
    rw [List.head?_append_of_ne_nil _ hne', List.head?_append_of_ne_nil _ hne']

/-- A comment that does not go on behind a piece is closed in it. -/
theorem comment_swap {t : Treatment}
    (h : (match upTo? (ascii '*') (ascii '/') (w ++ z :: q) with
      | some n => Treatment.erase (1 + n)
      | none => .erase (ascii '*' :: (w ++ z :: q)).length) = t)
    (hfit : ∀ n, t = .erase n → n ≤ w.length + 1) :
    (match upTo? (ascii '*') (ascii '/') (w ++ z :: q') with
      | some n => Treatment.erase (1 + n)
      | none => .erase (ascii '*' :: (w ++ z :: q')).length) = t := by
  split at h
  · rename_i n hn
    have hle := hfit _ h.symm
    rw [upTo?_swap hn (by omega), ← h]
  · have hle := hfit _ h.symm
    simp only [List.length_cons, List.length_append] at hle
    omega

/-- An attribute is closed in a piece, or is never closed. -/
theorem attribute_swap {t : Treatment} (hz : z ≠ ascii '*')
    (hq : upTo? (ascii '*') (ascii ')') q = none → upTo? (ascii '*') (ascii ')') q' = none)
    (h : (match upTo? (ascii '*') (ascii ')') (w ++ z :: q) with
      | some n => Treatment.erase (1 + n)
      | none => .plain) = t)
    (hfit : ∀ n, t = .erase n → n ≤ w.length + 1) :
    (match upTo? (ascii '*') (ascii ')') (w ++ z :: q') with
      | some n => Treatment.erase (1 + n)
      | none => .plain) = t := by
  split at h
  · rename_i n hn
    have hle := hfit _ h.symm
    rw [upTo?_swap hn (by omega), ← h]
  · rename_i hn
    rw [upTo?_swap_none hz hn hq, ← h]

/-- The treatment of a byte depends on the source up to a word byte only, unless it begins
something that goes on behind that byte, or an attribute that is never closed. -/
theorem treatment_swap {start : Bool} {b : UInt8} {t : Treatment} (hz : isWord z = true)
    (hq : upTo? (ascii '*') (ascii ')') q = none → upTo? (ascii '*') (ascii ')') q' = none)
    (h : treatment start b (w ++ z :: q) = t) (hcopy : ∀ n, t ≠ .copy n)
    (hfit : ∀ n, t = .erase n → n ≤ w.length) : treatment start b (w ++ z :: q') = t := by
  obtain ⟨hline, hspace, -, hslash, hstar, hopen, hclose, -, -⟩ := isWord_ne hz
  have hhead : (w ++ z :: q').head? = (w ++ z :: q).head? := by
    cases w <;> rfl
  have hrest (he : Treatment.erase (restOfLine (w ++ z :: q)) = t) :
      Treatment.erase (restOfLine (w ++ z :: q')) = t := by
    rwa [restOfLine_swap hline (hfit _ he.symm)]
  -- the byte behind the first one of a mark stands in the piece
  have hmark (hc : (w ++ z :: q).head? = some (ascii '*')) : ∃ w', w = ascii '*' :: w' := by
    cases w with
    | nil => exact absurd (Option.some.inj hc) hstar
    | cons c w' => exact ⟨w', by rw [show c = ascii '*' from Option.some.inj hc]⟩
  unfold treatment at h ⊢
  rw [hhead]
  split
  · rename_i hquote
    rw [if_pos hquote] at h
    exact absurd h.symm (hcopy _)
  · rename_i hquote
    rw [if_neg hquote] at h
    split
    · rename_i hcomment
      rw [if_pos hcomment] at h
      exact hrest h
    · rename_i hcomment
      rw [if_neg hcomment] at h
      split
      · rename_i hblock
        rw [if_pos hblock] at h
        simp only [Bool.and_eq_true, beq_iff_eq] at hblock
        obtain ⟨w', rfl⟩ := hmark hblock.2
        exact comment_swap h hfit
      · rename_i hblock
        rw [if_neg hblock] at h
        have hwild (hc : (w ++ z :: q).head? = some (ascii '*')) :
            isWildcard (w ++ z :: q').tail = isWildcard (w ++ z :: q).tail := by
          obtain ⟨w', rfl⟩ := hmark hc
          exact isWildcard_swap hspace
        by_cases hattr : b = ascii '(' ∧ (w ++ z :: q).head? = some (ascii '*')
        · rw [hwild hattr.2]
          obtain ⟨w', rfl⟩ := hmark hattr.2
          simp only [List.cons_append, List.tail_cons] at h ⊢
          split
          · rename_i hopen'
            rw [if_pos hopen'] at h
            exact attribute_swap hstar hq h hfit
          · rename_i hopen'
            rw [if_neg hopen'] at h
            obtain ⟨rfl, -⟩ := hattr
            simpa [show (ascii '(' == backtick) = false from by decide] using h
        · have hno (c : Bool) : (b == ascii '(' && (w ++ z :: q).head? == some (ascii '*') && c) =
              false := by
            rw [← Bool.not_eq_true]
            simp only [Bool.and_eq_true, beq_iff_eq]
            exact fun hc => hattr hc.1
          simp only [hno, Bool.false_eq_true, if_false] at h ⊢
          split
          · rename_i htick
            rw [if_pos htick] at h
            exact hrest h
          · rename_i htick
            rwa [if_neg htick] at h

/-- Blanking out goes through a piece in the same way before another end of the source. -/
theorem Scanned.swap {s s' : List UInt8} {start e : Bool} (h : Scanned (z :: q) start s s' e)
    (hz : isWord z = true)
    (hq : upTo? (ascii '*') (ascii ')') q = none → upTo? (ascii '*') (ascii ')') q' = none) :
    Scanned (z :: q') start s s' e := by
  induction h with
  | nil start => exact .nil start
  | plain h _ ih => exact .plain (treatment_swap hz hq h (by simp) (by simp)) ih
  | @erased start e b l s s' h _ ih =>
    rw [← List.append_assoc] at h
    have hswap := treatment_swap hz hq h (by simp) fun n hn => by
      obtain rfl := Treatment.erase.inj hn
      simp
    rw [List.append_assoc] at hswap
    exact .erased hswap ih
  | quoted h _ ih => exact .quoted h ih

end

/-! ### Tidy tokens -/

/-- Whether a string is closed before the end of its line, by the last of the bytes behind its
opening quote; a backslash hides the byte after it. -/
def isClosed : List UInt8 → Bool
  | [] => false
  | [b] => b == ascii '"'
  | b :: c :: bs =>
    if b == ascii '"' || b == newline then false
    else if b == ascii '\\' then isClosed bs
    else isClosed (c :: bs)

/-- Whether a token is a string that is closed on its line, an escaped identifier without quotes, or
neither a string nor an escaped identifier. -/
def Token.isTidy (t : Token) : Bool :=
  match t.bytes with
  | [] => true
  | b :: l =>
    if b == ascii '"' then isClosed l
    else if b == ascii '\\' then !l.contains (ascii '"')
    else true

theorem exists_quotable {l : List UInt8} (h : isClosed l = true) :
    ∃ m, l = m ++ [ascii '"'] ∧ Quotable m := by
  induction l using isClosed.induct with
  | case1 => cases h
  | case2 b =>
    rw [isClosed, beq_iff_eq] at h
    exact ⟨[], by rw [h]; rfl, .nil⟩
  | case3 b c bs hend =>
    rw [isClosed, if_pos hend] at h
    cases h
  | case4 b c bs hend hslash ih =>
    rw [isClosed, if_neg hend, if_pos hslash] at h
    obtain ⟨m, rfl, hm⟩ := ih h
    obtain rfl : b = ascii '\\' := eq_of_beq hslash
    exact ⟨ascii '\\' :: c :: m, rfl, .escaped c hm⟩
  | case5 b c bs hend hslash ih =>
    rw [isClosed, if_neg hend, if_neg hslash] at h
    simp only [Bool.or_eq_true, beq_iff_eq, not_or] at hend hslash
    obtain ⟨m, hm, hq⟩ := ih h
    exact ⟨b :: m, by rw [hm]; rfl, .plain hend.1 hslash hend.2 hq⟩

/-- A string that is closed on its line ends where its token does. -/
theorem tokenRest_closed {l : List UInt8} (h : isClosed l = true) (c : List UInt8) :
    tokenRest (ascii '"') (l ++ c) = l.length := by
  obtain ⟨m, rfl, hm⟩ := exists_quotable h
  rw [tokenRest, if_pos (by simp), List.append_assoc, List.singleton_append, quotedRest_quoted hm,
    List.length_append, List.length_singleton]

/-- A tidy token ends where it ends before another text that begins with a blank or with the same
byte. -/
theorem tokenRest_swap {b : UInt8} {l c c' : List UInt8} {off : Nat}
    (h : tokenRest b (l ++ c) = l.length) (htidy : Token.isTidy ⟨b :: l, off⟩ = true)
    (hhead : ∀ y ∈ c'.head?, isSpace y = true ∨ y ∈ c.head?) :
    tokenRest b (l ++ c') = l.length := by
  by_cases hquote : b = ascii '"'
  · subst hquote
    rw [Token.isTidy] at htidy
    exact tokenRest_closed (by simpa using htidy) c'
  · -- the bytes of the token pass a test that no blank passes
    have hswap (p : UInt8 → Bool) (hp : ∀ y, isSpace y = true → p y = false)
        (h : ((l ++ c).takeWhile p).length = l.length) :
        ((l ++ c').takeWhile p).length = l.length := by
      have hwhole : (l ++ c).takeWhile p = l :=
        (List.prefix_of_prefix_length_le (List.takeWhile_prefix p) (List.prefix_append l c)
          h.le).eq_of_length h
      have hall : ∀ x ∈ l, p x = true := fun x hx => List.mem_takeWhile_imp (hwhole.symm ▸ hx)
      rw [List.takeWhile_append_of_pos hall] at hwhole ⊢
      have hstop : c.takeWhile p = [] := by simpa using hwhole
      cases c' with
      | nil => simp
      | cons y c' =>
        rw [List.takeWhile_cons_of_neg, List.append_nil]
        rcases hhead y rfl with hy | hy
        · simp [hp y hy]
        · intro hpy
          cases c with
          | nil => cases hy
          | cons x c =>
            obtain rfl := Option.some.inj hy
            rw [List.takeWhile_cons_of_pos hpy] at hstop
            cases hstop
    rw [tokenRest_unquoted hquote] at h ⊢
    split
    · rename_i hslash
      rw [if_pos hslash] at h
      exact hswap _ (fun y hy => by simp [hy]) h
    · rename_i hslash
      rw [if_neg hslash] at h
      split
      · rename_i hword
        rw [if_pos hword] at h
        refine hswap _ (fun y hy => ?_) h
        simp only [isSpace, Bool.or_eq_true, beq_iff_eq] at hy
        rcases hy with ((rfl | rfl) | rfl) | rfl <;> decide
      · rename_i hword
        rwa [if_neg hword] at h

section
variable {start : Bool} {src c : List UInt8}

/-- Text that is neither blank nor quoted was there before. -/
theorem scanned_kept {l : List UInt8} (hspace : ∀ x ∈ l, isSpace x = false)
    (hquote : ascii '"' ∉ l) (h : stripFrom 0 0 start src = l ++ c) :
    ∃ r e, src = l ++ r ∧ Scanned r start l l e ∧ stripFrom 0 0 e r = c := by
  induction l generalizing start src with
  | nil => exact ⟨src, start, rfl, .nil start, h⟩
  | cons b l ih =>
    rw [List.mem_cons, not_or] at hquote
    cases src with
    | nil => cases h
    | cons b' bs =>
      rw [stripFrom] at h
      split at h
      · rename_i n _
        obtain rfl : blanked b' = b := (List.cons.inj h).1
        have hblank : isSpace (blanked b') = true := by
          unfold blanked
          split
          · rename_i hb
            rw [eq_of_beq hb]
            decide
          · decide
        exact absurd hblank (by simp [hspace _ List.mem_cons_self])
      · rename_i n hcopy
        obtain rfl : b' = b := (List.cons.inj h).1
        exact absurd (treatment_copy hcopy).symm hquote.1
      · rename_i hplain
        obtain ⟨rfl, htail⟩ := List.cons.inj h
        obtain ⟨r, e, rfl, hs, hc⟩ :=
          ih (fun x hx => hspace x (List.mem_cons_of_mem _ hx)) hquote.2 htail
        exact ⟨r, e, rfl, .plain hplain hs, hc⟩

/-- A string that is closed on its line was there before. -/
theorem exists_string {l : List UInt8} (hl : Quotable l)
    (h : stripFrom 0 (stringRest src) start src = l ++ ascii '"' :: c) :
    ∃ r, src = l ++ ascii '"' :: r := by
  induction hl generalizing start src with
  | nil =>
    cases src with
    | nil => cases h
    | cons b bs =>
      have hpos : ∃ n, stringRest (b :: bs) = n + 1 := by
        cases bs with
        | nil => exact ⟨0, rfl⟩
        | cons c bs =>
          rw [stringRest]
          split_ifs
          · exact ⟨0, rfl⟩
          · exact ⟨1 + stringRest bs, by omega⟩
          · exact ⟨stringRest (c :: bs), by omega⟩
      obtain ⟨n, hn⟩ := hpos
      rw [hn, stripFrom] at h
      obtain rfl : b = ascii '"' := (List.cons.inj h).1
      exact ⟨bs, rfl⟩
  | @plain b l hquote hslash hline _ ih =>
    rcases src with _ | ⟨b', _ | ⟨c', bs⟩⟩
    · cases h
    · simp [stringRest, stripFrom] at h
    · rw [stringRest] at h
      split_ifs at h with hend hback
      · rw [stripFrom] at h
        obtain rfl := (List.cons.inj h).1
        simp [hquote, hline] at hend
      · rw [Nat.add_comm, stripFrom] at h
        obtain rfl := (List.cons.inj h).1
        exact absurd (eq_of_beq hback) hslash
      · rw [Nat.add_comm, stripFrom] at h
        obtain ⟨rfl, htail⟩ := List.cons.inj h
        obtain ⟨r, hr⟩ := ih htail
        exact ⟨r, by rw [hr, List.cons_append]⟩
  | @escaped b l _ ih =>
    rcases src with _ | ⟨b', _ | ⟨c', bs⟩⟩
    · cases h
    · simp [stringRest, stripFrom] at h
    · have hb : b' = ascii '\\' := by
        rw [stringRest] at h
        split_ifs at h
        · exact (List.cons.inj h).1
        · rw [Nat.add_comm] at h
          exact (List.cons.inj h).1
        · rw [Nat.add_comm] at h
          exact (List.cons.inj h).1
      subst hb
      have hne : (ascii '\\' == ascii '"' || ascii '\\' == newline) = false := by decide
      rw [stringRest, hne, if_neg (by simp), if_pos (by simp), Nat.add_comm, stripFrom,
        stripFrom] at h
      obtain ⟨rfl, htail⟩ := List.cons.inj (List.cons.inj h).2
      obtain ⟨r, hr⟩ := ih htail
      exact ⟨r, by rw [hr, List.cons_append, List.cons_append]⟩

theorem scanned_string {l : List UInt8} (hl : Quotable l)
    (h : stripFrom 0 0 start src = ascii '"' :: (l ++ ascii '"' :: c)) :
    ∃ r, src = ascii '"' :: (l ++ ascii '"' :: r) ∧ stripFrom 0 0 false r = c := by
  cases src with
  | nil => cases h
  | cons b bs =>
    have hb : b = ascii '"' := by
      rw [stripFrom] at h
      split at h
      · rename_i n _
        have hblank : blanked b = ascii '"' := (List.cons.inj h).1
        unfold blanked at hblank
        split at hblank
        · rename_i hline
          rw [eq_of_beq hline] at hblank
          exact absurd hblank (by decide)
        · exact absurd hblank (by decide)
      · exact (List.cons.inj h).1
      · exact (List.cons.inj h).1
    subst hb
    rw [stripFrom, treatment_quote] at h
    have htail := (List.cons.inj h).2
    obtain ⟨r, rfl⟩ := exists_string hl htail
    rw [stringRest_quoted hl, stripFrom_string] at htail
    exact ⟨r, rfl, (List.cons.inj (List.append_cancel_left htail)).2⟩

/-- Blanks are there before, or something in their place that goes through as a whole. -/
theorem scanned_blank {b : UInt8} (hb : isSpace b = true) (h : stripFrom 0 0 start src = b :: c) :
    ∃ s s' r e, s ≠ [] ∧ src = s ++ r ∧ Scanned r start s s' e ∧ (∀ x ∈ s', isSpace x = true) := by
  cases src with
  | nil => cases h
  | cons b' bs =>
    rw [stripFrom] at h
    split at h
    · rename_i n herase
      have hsplit : bs.take n ++ ([] ++ bs.drop n) = bs := List.take_append_drop n bs
      have hlength : (bs.take n).length = n := by
        rw [List.length_take, Nat.min_eq_left (treatment_erase_le herase)]
      have hs : Scanned (bs.drop n) start (b' :: (bs.take n ++ []))
          ((b' :: bs.take n).map blanked ++ []) start :=
        .erased (by rw [hsplit, herase, hlength]) (.nil start)
      refine ⟨_, _, bs.drop n, start, List.cons_ne_nil _ _, by simp, hs, fun x hx => ?_⟩
      rw [List.append_nil] at hx
      obtain ⟨y, -, rfl⟩ := List.mem_map.1 hx
      unfold blanked
      split
      · rename_i hy
        rw [eq_of_beq hy]
        decide
      · decide
    · rename_i n hcopy
      obtain rfl : b' = b := (List.cons.inj h).1
      rw [treatment_copy hcopy] at hb
      exact absurd hb (by decide)
    · rename_i hplain
      obtain rfl : b' = b := (List.cons.inj h).1
      refine ⟨[b'], [b'], bs, _, by simp, rfl, .plain hplain (.nil _), ?_⟩
      simpa using hb

/-- A tidy token was there before. -/
theorem scanned_token {b : UInt8} (hb : isSpace b = false) {off : Nat}
    (htidy : Token.isTidy ⟨b :: c.take (tokenRest b c), off⟩ = true)
    (h : stripFrom 0 0 start src = b :: c) :
    ∃ r e, src = b :: c.take (tokenRest b c) ++ r ∧
      Scanned r start (b :: c.take (tokenRest b c)) (b :: c.take (tokenRest b c)) e ∧
      stripFrom 0 0 e r = c.drop (tokenRest b c) := by
  by_cases hquote : b = ascii '"'
  · subst hquote
    have hclosed : isClosed (c.take (tokenRest (ascii '"') c)) = true := by
      rw [Token.isTidy] at htidy
      simpa using htidy
    obtain ⟨m, hm, hq⟩ := exists_quotable hclosed
    have hsplit : c = m ++ ascii '"' :: c.drop (tokenRest (ascii '"') c) := by
      conv_lhs => rw [← List.take_append_drop (tokenRest (ascii '"') c) c, hm]
      rw [List.append_assoc, List.singleton_append]
    rw [hm]
    generalize c.drop (tokenRest (ascii '"') c) = d at hsplit ⊢
    rw [hsplit] at h
    obtain ⟨r, rfl, hr⟩ := scanned_string hq h
    exact ⟨r, false, by simp, .quoted hq (.nil false), hr⟩
  · have hspace : ∀ x ∈ b :: c.take (tokenRest b c), isSpace x = false := by
      rintro x hx
      rcases List.mem_cons.1 hx with rfl | hx
      · exact hb
      · exact not_space_of_mem_token hquote hx
    have hclean : ascii '"' ∉ b :: c.take (tokenRest b c) := by
      rw [List.mem_cons, not_or]
      refine ⟨Ne.symm hquote, fun hmem => ?_⟩
      by_cases hslash : b = ascii '\\'
      · rw [Token.isTidy] at htidy
        simp [hslash] at htidy
        exact htidy (hslash ▸ hmem)
      · rw [tokenRest_unquoted hquote, if_neg hslash] at hmem
        split at hmem
        · rw [(List.prefix_iff_eq_take.1 (List.takeWhile_prefix continuesWord)).symm] at hmem
          exact absurd (List.mem_takeWhile_imp hmem) (by decide)
        · simp at hmem
    refine scanned_kept hspace hclean ?_
    rw [h, List.cons_append, List.take_append_drop]

end

theorem tokensFrom_blanks {l : List UInt8} (h : ∀ x ∈ l, isSpace x = true) (off : Nat)
    (rest : List UInt8) : tokensFrom off 0 (l ++ rest) = tokensFrom (off + l.length) 0 rest := by
  induction l generalizing off with
  | nil => rfl
  | cons b l ih =>
    rw [List.cons_append, tokensFrom_space (h b List.mem_cons_self),
      ih (fun x hx => h x (List.mem_cons_of_mem _ hx)), List.length_cons]
    congr 1
    omega

/-- The token `t` comes first and the tokens `us` behind it. -/
def Begins (off : Nat) (clean : List UInt8) (t : Token) (us : List Token) : Prop :=
  ∃ b c, clean = b :: c ∧ isSpace b = false ∧ t = ⟨b :: c.take (tokenRest b c), off⟩ ∧
    us = tokensFrom (off + 1) (tokenRest b c) c

theorem Begins.tokens {off : Nat} {clean : List UInt8} {t : Token} {us : List Token}
    (h : Begins off clean t us) : tokensFrom off 0 clean = t :: us := by
  obtain ⟨b, c, rfl, hb, rfl, rfl⟩ := h
  rw [tokensFrom, if_neg (by simp [hb])]

/-- The first token and what is left behind it. -/
theorem Begins.split {off : Nat} {clean : List UInt8} {t : Token} {us : List Token}
    (h : Begins off clean t us) : t.offset = off ∧ ∃ c, clean = t.bytes ++ c ∧
      us = tokensFrom (off + t.bytes.length) 0 c := by
  obtain ⟨b, c, rfl, -, rfl, rfl⟩ := h
  have hlength : (c.take (tokenRest b c)).length = tokenRest b c := by
    rw [List.length_take, Nat.min_eq_left (tokenRest_le b c)]
  have hskip := tokensFrom_skip (off + 1) (c.take (tokenRest b c)) (c.drop (tokenRest b c))
  rw [List.take_append_drop, hlength] at hskip
  refine ⟨rfl, c.drop (tokenRest b c), by simp, ?_⟩
  rw [hskip, List.length_cons, hlength]
  congr 1
  omega

section
variable {start : Bool} {off : Nat} {src : List UInt8} {ts us : List Token} {t : Token}

/-- Blanking out goes through a piece of the source to the token `t`, with the tokens `us` behind
it. The tokens `ts` of that piece stay the same before anything that begins with a blank or like
`t`. -/
def ScannedTo (start : Bool) (off : Nat) (src : List UInt8) (ts : List Token) (t : Token)
    (us : List Token) : Prop :=
  ∃ s s' r e, src = s ++ r ∧ Scanned r start s s' e ∧
    Begins (off + s.length) (stripFrom 0 0 e r) t us ∧
    ∀ c, (∀ y ∈ c.head?, isSpace y = true ∨ y ∈ t.bytes.head?) →
      tokensFrom off 0 (s' ++ c) = ts ++ tokensFrom (off + s.length) 0 c

theorem ScannedTo.blanks {s s' r : List UInt8} {e : Bool} (hs : Scanned r start s s' e)
    (hblank : ∀ x ∈ s', isSpace x = true) (h : ScannedTo e (off + s.length) r ts t us) :
    ScannedTo start off (s ++ r) ts t us := by
  obtain ⟨s₂, s₂', r, e, rfl, hs₂, hbegins, htokens⟩ := h
  refine ⟨s ++ s₂, s' ++ s₂', r, e, by rw [List.append_assoc], hs.append hs₂, ?_, fun d hd => ?_⟩
  · rwa [List.length_append, ← Nat.add_assoc]
  · rw [List.append_assoc, tokensFrom_blanks hblank, hs.length_eq, htokens d hd,
      List.length_append, Nat.add_assoc]

theorem ScannedTo.token {b : UInt8} {l d r : List UInt8} {e : Bool} (hb : isSpace b = false)
    (hrest : tokenRest b (l ++ d) = l.length) (htidy : Token.isTidy ⟨b :: l, off⟩ = true)
    (hs : Scanned r start (b :: l) (b :: l) e) (hd : stripFrom 0 0 e r = d)
    (h : ScannedTo e (off + (b :: l).length) r ts t us) :
    ScannedTo start off (b :: l ++ r) (⟨b :: l, off⟩ :: ts) t us := by
  obtain ⟨s₂, s₂', r, e, rfl, hs₂, hbegins, htokens⟩ := h
  have hoff : off + (b :: l).length + s₂.length = off + (b :: l ++ s₂).length := by
    rw [List.length_append, Nat.add_assoc]
  refine ⟨b :: l ++ s₂, b :: l ++ s₂', r, e, by rw [List.append_assoc], hs.append hs₂,
    hoff ▸ hbegins, fun x hx => ?_⟩
  -- what follows the token begins as before, or with a blank
  have hhead : ∀ y ∈ (s₂' ++ x).head?, isSpace y = true ∨ y ∈ d.head? := by
    intro y hy
    rw [← hd, hs₂.strip]
    cases s₂' with
    | cons z s₂' => exact .inr hy
    | nil =>
      obtain ⟨b', c', hc', -, ht, -⟩ := hbegins
      have hy' := hx y hy
      rwa [ht, ← List.nil_append (stripFrom 0 0 e r), hc'] at *
  have hend := tokenRest_swap hrest htidy hhead
  rw [List.cons_append, List.cons_append, List.append_assoc, tokensFrom_token hb hend,
    htokens x hx, hoff]
  rfl

/-- Blanking out is in ordinary text in front of every token, if those before it are tidy. -/
theorem exists_scanned (ts : List Token)
    (h : tokensFrom off 0 (stripFrom 0 0 start src) = ts ++ t :: us)
    (htidy : ∀ u ∈ ts, u.isTidy = true) : ScannedTo start off src ts t us := by
  induction hn : src.length using Nat.strong_induction_on generalizing start off src ts with
  | _ n ih =>
    subst hn
    cases hclean : stripFrom 0 0 start src with
    | nil =>
      rw [hclean] at h
      simp [tokensFrom] at h
    | cons b c =>
      cases hb : isSpace b with
      | true =>
        obtain ⟨s₁, s₁', r₁, e₁, hne, rfl, hs₁, hblank⟩ := scanned_blank hb hclean
        rw [hs₁.strip, tokensFrom_blanks hblank, hs₁.length_eq] at h
        have hpos := List.length_pos_of_ne_nil hne
        have hlt : r₁.length < (s₁ ++ r₁).length := by
          rw [List.length_append]
          omega
        exact .blanks hs₁ hblank (ih _ hlt ts h htidy rfl)
      | false =>
        rw [hclean, tokensFrom, if_neg (by simp [hb])] at h
        cases ts with
        | nil =>
          obtain ⟨ht, hus⟩ := List.cons.inj h
          exact ⟨[], [], src, start, rfl, .nil start, ⟨b, c, hclean, hb, ht.symm, hus.symm⟩,
            fun d _ => rfl⟩
        | cons u ts =>
          obtain ⟨rfl, htail⟩ := List.cons.inj h
          have htidyToken := htidy _ List.mem_cons_self
          have hlength : (c.take (tokenRest b c)).length = tokenRest b c := by
            rw [List.length_take, Nat.min_eq_left (tokenRest_le b c)]
          obtain ⟨r₁, e₁, rfl, hs₁, hr₁⟩ := scanned_token hb htidyToken hclean
          have hsplit := List.take_append_drop (tokenRest b c) c
          generalize c.take (tokenRest b c) = l at *
          generalize c.drop (tokenRest b c) = d at *
          subst hsplit
          rw [← hlength, tokensFrom_skip, ← hr₁, Nat.add_assoc, Nat.add_comm 1] at htail
          have hlt : r₁.length < (b :: l ++ r₁).length := by
            rw [List.cons_append, List.length_cons, List.length_append]
            omega
          exact .token hb hlength.symm htidyToken hs₁ hr₁
            (ih _ hlt ts htail (fun u hmem => htidy u (List.mem_cons_of_mem _ hmem)) rfl)

end

end TaskLoom.Source
