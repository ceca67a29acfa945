import Mathlib.Data.List.Basic
import TaskLoom.Hdl.Expr

/-!
# Chains of operators

What stands between two parentheses of an expression is a chain of pieces: operators, and trees that
were read already.  `Piece.rank` tells how loosely an operator binds, from the unary ones (0) over
`+` and `-` (1), `<<` (2) and `==` (3) to `&&` (4).

A chain is read by cutting it at its loosest operators.  `readBinary n` does so for operators of
rank `n` at most, which it joins from the left; `readChain` joins the terms between `&&` at once.

The relations `Parses n` and `ParsesTerms` are the grammar behind these readers, one constructor for
each rule.  Main statements: the readers read exactly what the grammar says
(`readBinary_eq_some_iff`, `readChain_eq_some_iff`).
-/

namespace TaskLoom

/-- A piece of a chain. -/
inductive Piece where
  | tree (e : Expr)
  | unary (op : UnaryOp)
  | binary (op : BinaryOp)
  | conj

/-- How loosely an operator between two operands binds. -/
def BinaryOp.rank : BinaryOp → Nat
  | .add | .sub => 1
  | .shl => 2
  | .eq | .unknown => 3

def Piece.rank : Piece → Nat
  | .tree _ | .unary _ => 0
  | .binary op => op.rank
  | .conj => 4

/-- A chain, cut by the operators of a rank: what stands before the first one, and each of them with
what stands behind it. -/
def cut (n : Nat) : List Piece → List Piece × List (Piece × List Piece)
  | [] => ([], [])
  | p :: ps =>
    let (head, rest) := cut n ps
    if p.rank = n then ([], (p, head) :: rest) else (p :: head, rest)

/-- Reads a chain without operators between operands. -/
def readUnary : List Piece → Option Expr
  | [.tree e] => some e
  | .unary op :: ps => (readUnary ps).map (.unary op)
  | _ => none

/-- Two operands with a piece between them. -/
def Piece.join : Piece → Expr → Expr → Option Expr
  | .binary op, x, y => some (.binary op x y)
  | _, _, _ => none

/-- Reads a chain whose operators have the rank `n` at most; those of one rank bind from the
left. -/
def readBinary : (n : Nat) → List Piece → Option Expr
  | 0, ps => readUnary ps
  | n + 1, ps =>
    let (head, rest) := cut (n + 1) ps
    rest.foldl (fun acc part => do part.1.join (← acc) (← readBinary n part.2)) (readBinary n head)

/-- Reads the terms between the conjunctions of a chain. -/
def readTerms (ps : List Piece) : Option (List Expr) :=
  let (head, rest) := cut 4 ps
  (head :: rest.map Prod.snd).mapM (readBinary 3)

/-- Reads a chain.  Several terms are one conjunction. -/
def readChain (ps : List Piece) : Option Expr := do
  match ← readTerms ps with
  | [x] => return x
  | xs => return .all xs

/-! ### The grammar -/

/-- The chain is a tree with operators of the rank `n` at most. -/
inductive Parses : Nat → List Piece → Expr → Prop where
  | tree (e : Expr) : Parses 0 [.tree e] e
  | unary (op : UnaryOp) {ps : List Piece} {x : Expr} (h : Parses 0 ps x) :
      Parses 0 (.unary op :: ps) (.unary op x)
  | lift {n : Nat} {ps : List Piece} {x : Expr} (h : Parses n ps x) : Parses (n + 1) ps x
  | binary {n : Nat} {op : BinaryOp} {l r : List Piece} {x y : Expr} (hop : op.rank = n + 1)
      (hl : Parses (n + 1) l x) (hr : Parses n r y) :
      Parses (n + 1) (l ++ .binary op :: r) (.binary op x y)

/-- The chain is a conjunction of the terms, or the only term itself. -/
inductive ParsesTerms : List Piece → List Expr → Prop where
  | one {ps : List Piece} {x : Expr} (h : Parses 3 ps x) : ParsesTerms ps [x]
  | more {l r : List Piece} {x : Expr} {xs : List Expr} (hl : Parses 3 l x)
      (hr : ParsesTerms r xs) : ParsesTerms (l ++ .conj :: r) (x :: xs)

theorem BinaryOp.rank_pos (op : BinaryOp) : 0 < op.rank := by
  cases op <;> decide

theorem BinaryOp.rank_le (op : BinaryOp) : op.rank ≤ 3 := by
  cases op <;> decide

theorem Piece.rank_le (p : Piece) : p.rank ≤ 4 := by
  cases p with
  | tree | unary => exact Nat.zero_le 4
  | binary op => exact Nat.le_succ_of_le op.rank_le
  | conj => exact Nat.le_refl 4

namespace Parses

variable {n m : Nat} {ps : List Piece} {e : Expr}

theorem rank_le (h : Parses n ps e) : ∀ p ∈ ps, p.rank ≤ n := by
  induction h with
  | tree e => simp [Piece.rank]
  | unary op h ih => simpa [Piece.rank] using ih
  | lift h ih => exact fun p hp => Nat.le_succ_of_le (ih p hp)
  | binary hop hl hr ihl ihr =>
    intro p hp
    rcases List.mem_append.1 hp with hp | hp
    · exact ihl p hp
    · rcases List.mem_cons.1 hp with rfl | hp
      · exact Nat.le_of_eq hop
      · exact Nat.le_succ_of_le (ihr p hp)

theorem mono (h : Parses n ps e) (hnm : n ≤ m) : Parses m ps e := by
  induction hnm with
  | refl => exact h
  | step _ ih => exact ih.lift

/-- Operators that are not there do not matter. -/
theorem lower (h : Parses n ps e) (hps : ∀ p ∈ ps, p.rank ≤ m) : Parses m ps e := by
  induction h with
  | tree e => exact (Parses.tree e).mono (Nat.zero_le _)
  | unary op h _ => exact (Parses.unary op h).mono (Nat.zero_le _)
  | lift h ih => exact ih hps
  | binary hop hl hr _ _ =>
    have hle := hps _ (List.mem_append_right _ List.mem_cons_self)
    exact (Parses.binary hop hl hr).mono (hop ▸ hle)

theorem eq_of_tree {t : Expr} (h : Parses n [.tree t] e) : e = t := by
  generalize hps : [Piece.tree t] = ps at h
  induction h with
  | tree e =>
    cases hps
    rfl
  | unary op h _ => cases hps
  | lift h ih => exact ih hps
  | @binary n op l r x y hop hl hr _ _ =>
    have hmem : Piece.binary op ∈ [Piece.tree t] := hps ▸ by simp
    simp at hmem

theorem of_unary {op op' : UnaryOp} {x : Expr} (h : Parses n (.unary op :: ps) (.unary op' x)) :
    Parses 0 ps x := by
  generalize hqs : Piece.unary op :: ps = qs at h
  generalize he : Expr.unary op' x = e at h
  induction h with
  | tree e => cases hqs
  | unary op h _ =>
    cases hqs
    cases he
    exact h
  | lift h ih => exact ih hqs he
  | binary hop hl hr _ _ => cases he

/-- A tree of a binary operator was read before, or its operator is the last one of the loosest
rank. -/
theorem of_binary {op : BinaryOp} {x y : Expr} (h : Parses n ps (.binary op x y)) :
    ps = [.tree (.binary op x y)] ∨ ∃ l r, ps = l ++ .binary op :: r ∧
      Parses op.rank l x ∧ Parses (op.rank - 1) r y := by
  generalize he : Expr.binary op x y = e at h
  induction h with
  | tree e => exact .inl rfl
  | unary op h _ => cases he
  | lift h ih => exact ih he
  | binary hop hl hr _ _ =>
    cases he
    refine .inr ⟨_, _, rfl, ?_⟩
    rw [hop]
    exact ⟨hl, hr⟩

theorem of_all {ts : List Expr} (h : Parses n ps (.all ts)) : ps = [.tree (.all ts)] := by
  generalize he : Expr.all ts = e at h
  induction h with
  | tree e => rfl
  | unary op h _ => cases he
  | lift h ih => exact ih he
  | binary hop hl hr _ _ => cases he

end Parses

/-! ### The readers follow the grammar -/

section
variable {n : Nat} {l r ps : List Piece} {p : Piece}

theorem cut_of_ne (h : ∀ p ∈ ps, p.rank ≠ n) : cut n ps = (ps, []) := by
  induction ps with
  | nil => rfl
  | cons p ps ih =>
    obtain ⟨hp, hps⟩ := List.forall_mem_cons.1 h
    simp [cut, ih hps, hp]

/-- Cutting at the last operator of a rank. -/
theorem cut_append_last (hp : p.rank = n) (hr : ∀ q ∈ r, q.rank ≠ n) :
    cut n (l ++ p :: r) = ((cut n l).1, (cut n l).2 ++ [(p, r)]) := by
  induction l with
  | nil => simp [cut, cut_of_ne hr, hp]
  | cons q l ih =>
    rw [List.cons_append, cut, cut, ih]
    by_cases hq : q.rank = n <;> simp [hq]

/-- Cutting at the first operator of a rank. -/
theorem cut_append_first (hl : ∀ q ∈ l, q.rank ≠ n) (hp : p.rank = n) :
    cut n (l ++ p :: r) = (l, (p, (cut n r).1) :: (cut n r).2) := by
  induction l with
  | nil => simp [cut, hp]
  | cons q l ih =>
    obtain ⟨hq, hl⟩ := List.forall_mem_cons.1 hl
    simp [cut, ih hl, hq]

theorem exists_first (h : ∃ p ∈ ps, p.rank = n) :
    ∃ l p r, ps = l ++ p :: r ∧ p.rank = n ∧ ∀ q ∈ l, q.rank ≠ n := by
  induction ps with
  | nil => simp at h
  | cons p ps ih =>
    by_cases hp : p.rank = n
    · exact ⟨[], p, ps, rfl, hp, nofun⟩
    · obtain ⟨q, hq, hqn⟩ := h
      have hq : q ∈ ps := (List.mem_cons.1 hq).resolve_left fun he => hp (he ▸ hqn)
      obtain ⟨l, q, r, rfl, hqn, hl⟩ := ih ⟨q, hq, hqn⟩
      exact ⟨p :: l, q, r, rfl, hqn, List.forall_mem_cons.2 ⟨hp, hl⟩⟩

theorem exists_last (h : ∃ p ∈ ps, p.rank = n) :
    ∃ l p r, ps = l ++ p :: r ∧ p.rank = n ∧ ∀ q ∈ r, q.rank ≠ n := by
  have hreverse : ∃ p ∈ ps.reverse, p.rank = n := by simpa using h
  obtain ⟨l, p, r, hps, hp, hl⟩ := exists_first hreverse
  refine ⟨r.reverse, p, l.reverse, ?_, hp, by simpa using hl⟩
  rw [← List.reverse_reverse ps, hps]
  simp

theorem readBinary_succ_of_ne (h : ∀ p ∈ ps, p.rank ≠ n + 1) :
    readBinary (n + 1) ps = readBinary n ps := by
  rw [readBinary, cut_of_ne h]
  rfl

theorem readBinary_append (hp : p.rank = n + 1) (hr : ∀ q ∈ r, q.rank ≠ n + 1) :
    readBinary (n + 1) (l ++ p :: r) =
      (readBinary (n + 1) l).bind fun x => (readBinary n r).bind fun y => p.join x y := by
  rw [readBinary, cut_append_last hp hr]
  simp only [List.foldl_append, List.foldl_cons, List.foldl_nil]
  rfl

theorem readTerms_of_ne (h : ∀ p ∈ ps, p.rank ≠ 4) :
    readTerms ps = (readBinary 3 ps).map fun x => [x] := by
  rw [readTerms, cut_of_ne h]
  cases hx : readBinary 3 ps <;> simp [hx]

theorem readTerms_append (hl : ∀ q ∈ l, q.rank ≠ 4) :
    readTerms (l ++ .conj :: r) =
      (readBinary 3 l).bind fun x => (readTerms r).map fun xs => x :: xs := by
  rw [readTerms, cut_append_first hl rfl, readTerms]
  show (List.mapM _ (l :: _)) = _
  rw [List.mapM_cons]
  cases readBinary 3 l with
  | none => rfl
  | some x => exact Option.map_eq_bind.symm

end

theorem readUnary_eq_some_iff {ps : List Piece} {e : Expr} :
    readUnary ps = some e ↔ Parses 0 ps e := by
  constructor
  · intro h
    fun_induction readUnary ps generalizing e with
    | case1 x => exact Option.some.inj h ▸ .tree x
    | case2 op ps ih =>
      obtain ⟨x, hx, rfl⟩ := Option.map_eq_some_iff.1 h
      exact .unary op (ih hx)
    | case3 => cases h
  · intro h
    generalize hn : 0 = n at h
    induction h with
    | tree e => rfl
    | unary op h ih => rw [readUnary, ih hn, Option.map_some]
    | lift h _ => cases hn
    | binary hop hl hr _ _ => cases hn

theorem readBinary_eq_some_iff {n : Nat} {ps : List Piece} {e : Expr} (hn : n ≤ 3) :
    readBinary n ps = some e ↔ Parses n ps e := by
  constructor
  · intro h
    induction n generalizing ps e with
    | zero => exact readUnary_eq_some_iff.1 h
    | succ n ihn =>
      -- cut at the last operator of the rank, as long as there is one
      induction hlen : ps.length using Nat.strongRecOn generalizing ps e with
      | ind k ih =>
        by_cases hop : ∃ p ∈ ps, p.rank = n + 1
        · obtain ⟨l, p, r, rfl, hp, hr⟩ := exists_last hop
          rw [readBinary_append hp hr, Option.bind_eq_some_iff] at h
          obtain ⟨x, hx, h⟩ := h
          obtain ⟨y, hy, h⟩ := Option.bind_eq_some_iff.1 h
          cases p with
          | binary op =>
            cases h
            refine .binary hp (ih l.length ?_ hx rfl) (ihn (by omega) hy)
            simp [← hlen]
          | _ => cases h
        · have hne : ∀ p ∈ ps, p.rank ≠ n + 1 := fun p hp he => hop ⟨p, hp, he⟩
          rw [readBinary_succ_of_ne hne] at h
          exact (ihn (by omega) h).lift
  · intro h
    induction h with
    | tree e => rfl
    | unary op h _ => exact readUnary_eq_some_iff.2 (.unary op h)
    | lift h ih =>
      rw [readBinary_succ_of_ne fun p hp => ?_]
      · exact ih (by omega)
      · have := h.rank_le p hp
        omega
    | binary hop hl hr ihl ihr =>
      rw [readBinary_append (p := .binary _) hop fun q hq => ?_, ihl hn, ihr (by omega)]
      · rfl
      · have := hr.rank_le q hq
        omega

theorem readTerms_eq_some_iff {ps : List Piece} {xs : List Expr} :
    readTerms ps = some xs ↔ ParsesTerms ps xs := by
  constructor
  · intro h
    induction hlen : ps.length using Nat.strongRecOn generalizing ps xs with
    | ind k ih =>
      by_cases hconj : ∃ p ∈ ps, p.rank = 4
      · obtain ⟨l, p, r, rfl, hp, hl⟩ := exists_first hconj
        obtain rfl : p = .conj := by
          cases p with
          | conj => rfl
          | binary op => exact absurd hp (Nat.ne_of_lt (Nat.lt_succ_of_le op.rank_le))
          | _ => cases hp
        rw [readTerms_append hl, Option.bind_eq_some_iff] at h
        obtain ⟨x, hx, h⟩ := h
        obtain ⟨ys, hys, rfl⟩ := Option.map_eq_some_iff.1 h
        refine .more ((readBinary_eq_some_iff (by decide)).1 hx) (ih r.length ?_ hys rfl)
        simp [← hlen]
        omega
      · have hne : ∀ p ∈ ps, p.rank ≠ 4 := fun p hp he => hconj ⟨p, hp, he⟩
        rw [readTerms_of_ne hne, Option.map_eq_some_iff] at h
        obtain ⟨x, hx, rfl⟩ := h
        exact .one ((readBinary_eq_some_iff (by decide)).1 hx)
  · intro h
    have hne {ps : List Piece} {x : Expr} (h : Parses 3 ps x) : ∀ p ∈ ps, p.rank ≠ 4 :=
      fun p hp he => by
        have := h.rank_le p hp
        omega
    induction h with
    | one h =>
      rw [readTerms_of_ne (hne h), (readBinary_eq_some_iff (by decide)).2 h]
      rfl
    | more hl hr ih =>
      rw [readTerms_append (hne hl), (readBinary_eq_some_iff (by decide)).2 hl, ih]
      rfl

theorem readChain_eq_some_iff {ps : List Piece} {e : Expr} : readChain ps = some e ↔
    Parses 3 ps e ∨ ∃ x y zs, ParsesTerms ps (x :: y :: zs) ∧ e = .all (x :: y :: zs) := by
  have hone {x : Expr} (h : ParsesTerms ps [x]) : Parses 3 ps x := by
    cases h with
    | one h => exact h
    | more _ hr => cases hr
  unfold readChain
  constructor
  · intro h
    obtain ⟨xs, hxs, h⟩ := Option.bind_eq_some_iff.1 h
    have hterms := readTerms_eq_some_iff.1 hxs
    match xs with
    | [] => cases hterms
    | [x] =>
      cases h
      exact .inl (hone hterms)
    | x :: y :: zs =>
      cases h
      exact .inr ⟨x, y, zs, hterms, rfl⟩
  · rintro (h | ⟨x, y, zs, h, rfl⟩)
    · rw [readTerms_eq_some_iff.2 (.one h)]
      rfl
    · rw [readTerms_eq_some_iff.2 h]
      rfl

end TaskLoom
