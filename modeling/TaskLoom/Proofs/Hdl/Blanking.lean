import TaskLoom.Hdl.Token
import Mathlib.Data.List.Chain

/-!
# Blanking out, piece by piece

`Erases s s'`: wherever the piece `s` stands in a source as ordinary text, it is blanked out to `s'`
and the text behind it is ordinary again, unless that text completes a comment mark (`Safe`).  Text
without quotes, backticks and comment marks stays as it is (`erases_self`), and so do strings
(`erases_quoted`); comments and attributes turn into blanks (`erases_comment`, `erases_attribute`).
-/

namespace TaskLoom.Source

/-- The two bytes are neither the beginning of a comment nor of an attribute. -/
def NoMark (x y : UInt8) : Prop :=
  ¬ (x = ascii '/' ∧ (y = ascii '/' ∨ y = ascii '*')) ∧ ¬ (x = ascii '(' ∧ y = ascii '*')

/-- The text makes no comment mark together with what stands before it. -/
def Safe (rest : List UInt8) : Prop := ∀ y ∈ rest.head?, y ≠ ascii '/' ∧ y ≠ ascii '*'

/-- Wherever the piece `s` stands in ordinary text, it is blanked out to `s'`. -/
def Erases (s s' : List UInt8) : Prop :=
  s'.length = s.length ∧ ∀ start rest, Safe rest →
    ∃ start', stripFrom 0 0 start (s ++ rest) = s' ++ stripFrom 0 0 start' rest

theorem NoMark.of_safe {rest : List UInt8} (h : Safe rest) (x : UInt8) :
    ∀ y ∈ rest.head?, NoMark x y := by
  intro y hy
  obtain ⟨h₁, h₂⟩ := h y hy
  exact ⟨fun hxy => hxy.2.elim h₁ h₂, fun hxy => h₂ hxy.2⟩

theorem Safe.append {s rest : List UInt8} (hs : Safe s) (h : Safe rest) : Safe (s ++ rest) := by
  cases s with
  | nil => exact h
  | cons b s => exact hs

theorem Safe.append_left {s : List UInt8} (h : Safe s) (hne : s ≠ []) (rest : List UInt8) :
    Safe (s ++ rest) := by
  intro y hy
  rw [List.head?_append_of_ne_nil _ hne] at hy
  exact h y hy

theorem Erases.nil : Erases [] [] := ⟨rfl, fun start _ _ => ⟨start, rfl⟩⟩

theorem Erases.append {s s' t t' : List UInt8} (hs : Erases s s') (ht : Erases t t')
    (hsafe : Safe t) : Erases (s ++ t) (s' ++ t') := by
  refine ⟨by simp [hs.1, ht.1], fun start rest hrest => ?_⟩
  obtain ⟨start₁, h₁⟩ := hs.2 start (t ++ rest) (hsafe.append hrest)
  obtain ⟨start₂, h₂⟩ := ht.2 start₁ rest hrest
  exact ⟨start₂, by rw [List.append_assoc, h₁, h₂, List.append_assoc]⟩

theorem treatment_plain {start : Bool} {b : UInt8} {bs : List UInt8} (hquote : b ≠ ascii '"')
    (htick : b ≠ backtick) (h : ∀ y ∈ bs.head?, NoMark b y) : treatment start b bs = .plain := by
  have hcomment (c : Char) (hc : c = '/' ∨ c = '*') :
      (b == ascii '/' && bs.head? == some (ascii c)) = false := by
    rw [Bool.and_eq_false_imp]
    intro hb
    by_contra hne
    have hhead : bs.head? = some (ascii c) := by simpa using hne
    refine (h _ hhead).1 ⟨by simpa using hb, ?_⟩
    rcases hc with rfl | rfl <;> simp
  have hattr : (b == ascii '(' && bs.head? == some (ascii '*')) = false := by
    rw [Bool.and_eq_false_imp]
    intro hb
    by_contra hne
    have hhead : bs.head? = some (ascii '*') := by simpa using hne
    exact (h _ hhead).2 ⟨by simpa using hb, rfl⟩
  simp [treatment, hcomment, hattr, hquote, htick]

theorem erases_self {l : List UInt8} (hquote : ascii '"' ∉ l) (htick : backtick ∉ l)
    (h : l.IsChain NoMark) : Erases l l := by
  refine ⟨rfl, fun start rest hrest => ?_⟩
  induction l generalizing start with
  | nil => exact ⟨start, rfl⟩
  | cons b l ih =>
    rw [List.mem_cons, not_or] at hquote htick
    have hnext : ∀ y ∈ (l ++ rest).head?, NoMark b y := by
      cases l with
      | nil => exact .of_safe hrest b
      | cons c l =>
        rintro y hy
        cases hy
        exact (List.isChain_cons_cons.1 h).1
    have hplain : treatment start b (l ++ rest) = .plain :=
      treatment_plain (Ne.symm hquote.1) (Ne.symm htick.1) hnext
    obtain ⟨start', he⟩ := ih hquote.2 htick.2 h.tail (b == newline || (isSpace b && start))
    exact ⟨start', by simp only [List.cons_append, stripFrom, hplain, he]⟩

theorem stripFrom_copied (l rest : List UInt8) (start : Bool) :
    ∃ start', stripFrom 0 l.length start (l ++ rest) = l ++ stripFrom 0 0 start' rest := by
  induction l generalizing start with
  | nil => exact ⟨start, rfl⟩
  | cons b l ih =>
    obtain ⟨start', h⟩ := ih (b == newline)
    exact ⟨start', by simp only [List.length_cons, List.cons_append, stripFrom, h]⟩

/-- The inside of a string on one line, in which quotes and backslashes stand behind a backslash. -/
inductive Quotable : List UInt8 → Prop where
  | nil : Quotable []
  | plain {b : UInt8} {l : List UInt8} (hquote : b ≠ ascii '"') (hslash : b ≠ ascii '\\')
      (hline : b ≠ newline) (h : Quotable l) : Quotable (b :: l)
  | escaped (b : UInt8) {l : List UInt8} (h : Quotable l) : Quotable (ascii '\\' :: b :: l)

theorem Quotable.append {l r : List UInt8} (hl : Quotable l) (hr : Quotable r) :
    Quotable (l ++ r) := by
  induction hl with
  | nil => exact hr
  | plain hquote hslash hline _ ih => exact .plain hquote hslash hline ih
  | escaped b _ ih => exact .escaped b ih

theorem stringRest_quoted {l : List UInt8} (h : Quotable l) (rest : List UInt8) :
    stringRest (l ++ ascii '"' :: rest) = l.length + 1 := by
  induction h with
  | nil => cases rest <;> simp [stringRest]
  | @plain b l hquote hslash hline _ ih =>
    rw [List.cons_append]
    cases hr : l ++ ascii '"' :: rest with
    | nil => simp at hr
    | cons c cs =>
      rw [hr] at ih
      simp [stringRest, hquote, hslash, hline, ih]
      omega
  | @escaped b l _ ih =>
    have hslash : (ascii '\\' == ascii '"' || ascii '\\' == newline) = false := by decide
    simp only [List.cons_append, stringRest, hslash, ih, List.length_cons]
    simp
    omega

theorem erases_quoted {l : List UInt8} (h : Quotable l) :
    Erases (ascii '"' :: (l ++ [ascii '"'])) (ascii '"' :: (l ++ [ascii '"'])) := by
  refine ⟨rfl, fun start rest _ => ?_⟩
  have hcopy : treatment start (ascii '"') (l ++ ascii '"' :: rest) = .copy (l.length + 1) := by
    rw [treatment, if_pos (by simp), stringRest_quoted h]
  obtain ⟨start', hs⟩ := stripFrom_copied (l ++ [ascii '"']) rest false
  rw [List.append_assoc, List.length_append] at hs
  refine ⟨start', ?_⟩
  simp only [List.cons_append, List.append_assoc, List.nil_append, stripFrom, hcopy]
  simpa using hs

theorem stripFrom_erased (l rest : List UInt8) (start : Bool) :
    stripFrom l.length 0 start (l ++ rest) = l.map blanked ++ stripFrom 0 0 start rest := by
  induction l with
  | nil => rfl
  | cons b l ih => simp only [List.length_cons, List.cons_append, stripFrom, ih, List.map_cons]

/-- A comment up to the end of its line. -/
theorem treatment_line {l : List UInt8} (h : newline ∉ l) (start : Bool) (rest : List UInt8) :
    treatment start (ascii '/') (ascii '/' :: (l ++ newline :: rest)) = .erase (l.length + 1) := by
  have hline : restOfLine (ascii '/' :: (l ++ newline :: rest)) = l.length + 1 := by
    have hl : ∀ b ∈ l, (b != newline) = true := by
      intro b hb
      exact bne_iff_ne.2 fun he => h (he ▸ hb)
    rw [restOfLine, List.takeWhile_cons_of_pos (by decide), List.takeWhile_append_of_pos hl,
      List.takeWhile_cons_of_neg (by decide)]
    simp
  rw [treatment, if_neg (by decide), if_pos (by simp), hline]

theorem stripFrom_line {l : List UInt8} (h : newline ∉ l) (start : Bool) (rest : List UInt8) :
    stripFrom 0 0 start (ascii '/' :: ascii '/' :: (l ++ newline :: rest)) =
      32 :: 32 :: (l.map blanked ++ newline :: stripFrom 0 0 true rest) := by
  have hplain : treatment start newline rest = .plain :=
    treatment_plain (by decide) (by decide) fun y _ =>
      ⟨fun hy => absurd hy.1 (by decide), fun hy => absurd hy.1 (by decide)⟩
  simp only [stripFrom, treatment_line h, stripFrom_erased, hplain]
  rfl

theorem erases_comment {l : List UInt8} (h : newline ∉ l) :
    Erases (ascii '/' :: ascii '/' :: (l ++ [newline]))
      (32 :: 32 :: (l.map blanked ++ [newline])) := by
  refine ⟨by simp, fun start rest _ => ⟨true, ?_⟩⟩
  have hline := stripFrom_line h start rest
  simpa only [List.cons_append, List.append_assoc, List.nil_append] using hline

/-- The pair `x y` is found behind text that does not contain it. -/
theorem upTo?_append {x y : UInt8} (hxy : x ≠ y) {l : List UInt8}
    (h : l.IsChain fun a b => ¬ (a = x ∧ b = y)) (rest : List UInt8) :
    upTo? x y (l ++ x :: y :: rest) = some (l.length + 2) := by
  induction l with
  | nil => simp [upTo?]
  | cons a l ih =>
    have hne : (a == x && (l ++ x :: y :: rest).head? == some y) = false := by
      rw [Bool.and_eq_false_imp]
      intro ha
      cases l with
      | nil => simpa using hxy
      | cons b l =>
        have hab := (List.isChain_cons_cons.1 h).1
        simpa using fun hb => hab ⟨by simpa using ha, hb⟩
    rw [List.cons_append]
    cases hr : l ++ x :: y :: rest with
    | nil => simp at hr
    | cons c cs =>
      have ih := ih h.tail
      rw [hr] at ih hne
      rw [upTo?, if_neg (by simpa using hne), ih]
      simp

theorem isWildcard_append {l r : List UInt8} (hl : isWildcard l = false)
    (hr : isWildcard r = false) : isWildcard (l ++ r) = false := by
  unfold isWildcard at *
  rw [List.dropWhile_append]
  split
  · exact hr
  · rename_i hne
    rwa [List.head?_append_of_ne_nil _ (by simpa using hne)]

/-- An attribute, unless it looks like the wildcard of a sensitivity list. -/
theorem treatment_attribute {l : List UInt8}
    (h : l.IsChain fun a b => ¬ (a = ascii '*' ∧ b = ascii ')')) (hwild : isWildcard l = false)
    (start : Bool) (rest : List UInt8) :
    treatment start (ascii '(') (ascii '*' :: (l ++ ascii '*' :: ascii ')' :: rest)) =
      .erase (ascii '*' :: (l ++ [ascii '*', ascii ')'])).length := by
  have hwild' : isWildcard (l ++ ascii '*' :: ascii ')' :: rest) = false :=
    isWildcard_append hwild rfl
  have hslash : (ascii '(' == ascii '/') = false := by decide
  rw [treatment, if_neg (by decide), if_neg (by simp [hslash]), if_neg (by simp [hslash]),
    if_pos (by simp [hwild']), List.tail_cons, upTo?_append (by decide) h]
  simp
  omega

theorem erases_attribute {l : List UInt8}
    (h : l.IsChain fun a b => ¬ (a = ascii '*' ∧ b = ascii ')')) (hwild : isWildcard l = false) :
    Erases (ascii '(' :: ascii '*' :: (l ++ [ascii '*', ascii ')']))
      ((ascii '(' :: ascii '*' :: (l ++ [ascii '*', ascii ')'])).map blanked) := by
  refine ⟨List.length_map _, fun start rest _ => ⟨start, ?_⟩⟩
  have hs := stripFrom_erased (ascii '*' :: (l ++ [ascii '*', ascii ')'])) rest start
  simp only [List.cons_append, List.append_assoc, List.nil_append] at hs ⊢
  rw [stripFrom, treatment_attribute h hwild, List.map_cons, List.cons_append, ← hs]

/-- A comment between its two marks. -/
theorem treatment_block {l : List UInt8}
    (h : l.IsChain fun a b => ¬ (a = ascii '*' ∧ b = ascii '/')) (start : Bool)
    (rest : List UInt8) :
    treatment start (ascii '/') (ascii '*' :: (l ++ ascii '*' :: ascii '/' :: rest)) =
      .erase (ascii '*' :: (l ++ [ascii '*', ascii '/'])).length := by
  have hquote : (ascii '/' == ascii '"') = false := by decide
  have hline : (ascii '*' == ascii '/') = false := by decide
  rw [treatment, if_neg (by simp [hquote]), if_neg (by simp [hline]), if_pos (by simp),
    List.tail_cons, upTo?_append (by decide) h]
  simp
  omega

end TaskLoom.Source
