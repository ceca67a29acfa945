import TaskLoom.Proofs.Hdl.Chains

/-!
# Reading expressions back

An operand is written with parentheses if it is compound, and a conjunction of one term never is,
whatever its term is.  A text does not show conjunctions of one term, so `Expr.spelled` is the tree
that a text ought to give.  `Expr.Faithful`: every operand has parentheses, or binds tightly enough
without them.

A chain has as many operators as the tree that is read from it (`joints`), which tells where the
chain of the first operand ends.

Main statements: an expression is read back exactly if it is faithful (`read_back_iff_faithful`),
as every expression without conjunctions of one term is (`ofText?_text_of_hasSingle`).
-/

namespace TaskLoom

namespace Expr

mutual

/-- The tree that the text of an expression ought to give: constants are texts, and a conjunction of
one term is its term. -/
def spelled : Expr → Expr
  | .const width value => .literal (constText width value)
  | .unary op x => .unary op (spelled x)
  | .binary op x y => .binary op (spelled x) (spelled y)
  | .all [t] => spelled t
  | .all ts => .all (spelledAll ts)
  | e => e

def spelledAll : List Expr → List Expr
  | [] => []
  | t :: ts => spelled t :: spelledAll ts

end

theorem spelled_all (t u : Expr) (ts : List Expr) :
    spelled (.all (t :: u :: ts)) = .all (spelledAll (t :: u :: ts)) := by
  rw [spelled]
  simp

/-- How loosely the last operator of an expression binds that is written without parentheses. -/
def rank : Expr → Nat
  | .binary op _ _ => op.rank
  | .all [t] => rank t
  | .all (_ :: _ :: _) => 4
  | _ => 0

/-- As an operand, the expression has parentheses or an operator of the given rank at most. -/
def Fits (e : Expr) (n : Nat) : Prop := e.isCompound = true ∨ e.rank ≤ n

/-- The operands keep their operators to themselves. -/
inductive Faithful : Expr → Prop where
  | ident (name : String) : Faithful (.ident name)
  | const (width : Int) (value : UInt64) : Faithful (.const width value)
  | unary (op : UnaryOp) {x : Expr} (hx : Faithful x) (hfits : x.Fits 0) : Faithful (.unary op x)
  | binary {op : BinaryOp} {x y : Expr} (hx : Faithful x) (hy : Faithful y)
      (hleft : x.Fits op.rank) (hright : y.Fits (op.rank - 1)) : Faithful (.binary op x y)
  | single {t : Expr} (ht : Faithful t) : Faithful (.all [t])
  | all {t u : Expr} {ts : List Expr} (h : ∀ x ∈ t :: u :: ts, Faithful x)
      (hfits : ∀ x ∈ t :: u :: ts, x.Fits 3) : Faithful (.all (t :: u :: ts))

mutual

/-- The number of operators between operands. -/
def joints : Expr → Nat
  | .unary _ x => joints x
  | .binary _ x y => joints x + 1 + joints y
  | .all ts => jointsAll ts - 1
  | _ => 0

/-- The operators of several terms, with one behind each term. -/
def jointsAll : List Expr → Nat
  | [] => 0
  | t :: ts => joints t + 1 + jointsAll ts

end

end Expr

def Piece.joints : Piece → Nat
  | .tree e => e.joints
  | .unary _ => 0
  | .binary _ | .conj => 1

/-- The number of operators in a chain. -/
def jointsOf : List Piece → Nat
  | [] => 0
  | p :: ps => p.joints + jointsOf ps

@[simp] theorem jointsOf_nil : jointsOf [] = 0 := rfl

@[simp] theorem jointsOf_cons (p : Piece) (ps : List Piece) :
    jointsOf (p :: ps) = p.joints + jointsOf ps := rfl

@[simp] theorem jointsOf_append (ps qs : List Piece) :
    jointsOf (ps ++ qs) = jointsOf ps + jointsOf qs := by
  induction ps with
  | nil => simp
  | cons p ps ih => simp [ih, Nat.add_assoc]

theorem Parses.joints {n : Nat} {ps : List Piece} {e : Expr} (h : Parses n ps e) :
    jointsOf ps = e.joints := by
  induction h with
  | tree e => simp [Piece.joints]
  | unary op h ih => simpa [Piece.joints, Expr.joints] using ih
  | lift h ih => exact ih
  | binary hop hl hr ihl ihr =>
    simp [Piece.joints, Expr.joints, ihl, ihr]
    omega

theorem ParsesTerms.joints {ps : List Piece} {xs : List Expr} (h : ParsesTerms ps xs) :
    jointsOf ps + 1 = Expr.jointsAll xs := by
  induction h with
  | one h => simp [Expr.jointsAll, h.joints]
  | more hl hr ih =>
    simp [Piece.joints, Expr.jointsAll, hl.joints, ← ih]
    omega

theorem joints_readChain {ps : List Piece} {e : Expr} (h : readChain ps = some e) :
    jointsOf ps = e.joints := by
  rcases readChain_eq_some_iff.1 h with hreads | ⟨x, y, zs, hterms, rfl⟩
  · exact hreads.joints
  · rw [Expr.joints, ← hterms.joints, Nat.add_sub_cancel]

/-- Two chains with as many operators before some operator of each begin alike. -/
theorem append_inj_of_joints {l l' r r' : List Piece} {p p' : Piece}
    (h : l ++ p :: r = l' ++ p' :: r') (hp : p.joints = 1) (hp' : p'.joints = 1)
    (hl : jointsOf l = jointsOf l') : l = l' ∧ r = r' := by
  induction l generalizing l' with
  | nil =>
    cases l' with
    | nil => exact ⟨rfl, (List.cons.inj h).2⟩
    | cons q l' =>
      obtain ⟨rfl, -⟩ := List.cons.inj h
      simp [hp] at hl
      omega
  | cons q l ih =>
    cases l' with
    | nil =>
      obtain ⟨rfl, -⟩ := List.cons.inj h
      simp [hp'] at hl
    | cons q' l' =>
      obtain ⟨rfl, htail⟩ := List.cons.inj h
      obtain ⟨rfl, rfl⟩ := ih htail (by simpa using hl)
      exact ⟨rfl, rfl⟩

namespace Expr

variable {e : Expr} {c : List Piece}

theorem joints_enclose (hjoints : ∀ c, e.chain = some c → jointsOf c = e.spelled.joints)
    (h : e.enclose e.chain = some c) : jointsOf c = e.spelled.joints := by
  unfold enclose at h
  split at h
  · obtain ⟨d, hd, h⟩ := Option.bind_eq_some_iff.1 h
    obtain ⟨t, ht, rfl⟩ := Option.map_eq_some_iff.1 h
    simp [Piece.joints, ← hjoints d hd, joints_readChain ht]
  · exact hjoints c h

theorem joints_chains {ts : List Expr}
    (hjoints : ∀ x ∈ ts, ∀ c, x.chain = some c → jointsOf c = x.spelled.joints)
    (h : chains ts = some c) : jointsOf c + 1 = jointsAll (spelledAll ts) := by
  induction ts generalizing c with
  | nil => cases h
  | cons t ts ih =>
    obtain ⟨ht, hts⟩ := List.forall_mem_cons.1 hjoints
    cases ts with
    | nil => simp [spelledAll, jointsAll, joints_enclose ht h]
    | cons u ts =>
      obtain ⟨l, r, hl, hr, rfl⟩ := chains_cons_eq_some.1 h
      rw [spelledAll, jointsAll, ← ih hts hr, ← joints_enclose ht hl]
      simp [Piece.joints]
      omega

/-- A text has the operators of its tree. -/
theorem Spellable.joints_chain (h : e.Spellable) (hc : e.chain = some c) :
    jointsOf c = e.spelled.joints := by
  induction h generalizing c with
  | ident h =>
    cases hc
    rfl
  | const width value =>
    cases hc
    rfl
  | unary op hx ih =>
    obtain ⟨d, hd, rfl⟩ := chain_unary_eq_some.1 hc
    rw [spelled, joints, ← joints_enclose (fun _ => ih) hd]
    simp [Piece.joints]
  | binary hop hx hy ihx ihy =>
    obtain ⟨l, r, hl, hr, rfl⟩ := chain_binary_eq_some.1 hc
    rw [spelled, joints, ← joints_enclose (fun _ => ihx) hl, ← joints_enclose (fun _ => ihy) hr]
    simp [Piece.joints]
    omega
  | single ht ih =>
    rw [chain_single] at hc
    rw [spelled]
    exact ih hc
  | @all t u ts h ih =>
    rw [chain_all] at hc
    rw [spelled_all, joints, ← joints_chains (fun x hx _ => ih x hx) hc, Nat.add_sub_cancel]

/-! ### Faithful expressions are read back -/

/-- A chain of operators that bind tightly enough is read without terms. -/
theorem parses_of_rank {n : Nat} (hread : readChain c = some e) (hrank : ∀ p ∈ c, p.rank ≤ n)
    (hn : n ≤ 3) : Parses n c e := by
  rcases readChain_eq_some_iff.1 hread with h | ⟨x, y, zs, h, rfl⟩
  · exact h.lower hrank
  · cases h with
    | more hl hr =>
      have hconj := hrank .conj (by simp)
      simp only [Piece.rank] at hconj
      omega

/-- The text of an expression is read as the expression, and it has no operators that bind more
loosely than they should. -/
def ReadsBack (e : Expr) : Prop :=
  ∃ c, e.chain = some c ∧ (∀ p ∈ c, p.rank ≤ e.rank) ∧ readChain c = some e.spelled

theorem ReadsBack.operand {n : Nat} (h : e.ReadsBack) (hfits : e.Fits n) (hn : n ≤ 3) :
    ∃ c, e.enclose e.chain = some c ∧ Parses n c e.spelled := by
  obtain ⟨c, hc, hrank, hread⟩ := h
  unfold enclose
  rw [hc, Option.bind_some, hread, Option.map_some]
  split
  · exact ⟨_, rfl, (Parses.tree _).mono (Nat.zero_le n)⟩
  · rename_i hcompound
    have hle := hfits.resolve_left hcompound
    exact ⟨c, rfl, parses_of_rank hread (fun p hp => (hrank p hp).trans hle) hn⟩

theorem parsesTerms_chains {ts : List Expr} (hne : ts ≠ []) (h : ∀ x ∈ ts, x.ReadsBack)
    (hfits : ∀ x ∈ ts, x.Fits 3) : ∃ c, chains ts = some c ∧ ParsesTerms c (spelledAll ts) := by
  induction ts with
  | nil => exact absurd rfl hne
  | cons t ts ih =>
    obtain ⟨ht, hts⟩ := List.forall_mem_cons.1 h
    obtain ⟨htf, htsf⟩ := List.forall_mem_cons.1 hfits
    obtain ⟨l, hl, hreads⟩ := ht.operand htf le_rfl
    cases ts with
    | nil => exact ⟨l, hl, .one hreads⟩
    | cons u ts =>
      obtain ⟨r, hr, hterms⟩ := ih (List.cons_ne_nil u ts) hts htsf
      exact ⟨_, chains_cons_eq_some.2 ⟨l, r, hl, hr, rfl⟩, .more hreads hterms⟩

theorem Faithful.readsBack (h : e.Faithful) : e.ReadsBack := by
  induction h with
  | ident name => exact ⟨_, rfl, (Parses.tree _).rank_le, rfl⟩
  | const width value => exact ⟨_, rfl, (Parses.tree _).rank_le, rfl⟩
  | unary op hx hfits ih =>
    obtain ⟨c, hc, hreads⟩ := ih.operand hfits (Nat.zero_le 3)
    have hall := Parses.unary op hreads
    refine ⟨_, chain_unary_eq_some.2 ⟨c, hc, rfl⟩, hall.rank_le, ?_⟩
    exact readChain_eq_some_iff.2 (.inl (hall.mono (Nat.zero_le 3)))
  | @binary op x y hx hy hleft hright ihx ihy =>
    have hpos := op.rank_pos
    have hle := op.rank_le
    obtain ⟨l, hl, hlreads⟩ := ihx.operand hleft hle
    obtain ⟨r, hr, hrreads⟩ := ihy.operand hright (by omega)
    have hall : Parses op.rank (l ++ .binary op :: r) (.binary op x.spelled y.spelled) := by
      have hop : op.rank = op.rank - 1 + 1 := by omega
      rw [hop] at hlreads ⊢
      exact .binary hop hlreads hrreads
    refine ⟨_, chain_binary_eq_some.2 ⟨l, r, hl, hr, rfl⟩, hall.rank_le, ?_⟩
    exact readChain_eq_some_iff.2 (.inl (hall.mono hle))
  | single ht ih =>
    obtain ⟨c, hc, hrank, hread⟩ := ih
    exact ⟨c, by rwa [chain_single], by rwa [rank], by rwa [spelled]⟩
  | @all t u ts h hfits ih =>
    obtain ⟨c, hc, hterms⟩ := parsesTerms_chains (List.cons_ne_nil t (u :: ts)) ih hfits
    refine ⟨c, chain_all.trans hc, fun p _ => p.rank_le, ?_⟩
    rw [spelled_all]
    exact readChain_eq_some_iff.2 (.inr ⟨_, _, _, hterms, rfl⟩)

/-! ### Only faithful expressions are read back -/

/-- The operator of its rank is in the chain of an expression. -/
theorem rank_chain (hc : e.chain = some c) : e.rank = 0 ∨ ∃ p ∈ c, p.rank = e.rank := by
  fun_induction rank e generalizing c with
  | case1 op x y =>
    obtain ⟨l, r, hl, hr, rfl⟩ := chain_binary_eq_some.1 hc
    exact .inr ⟨.binary op, by simp, rfl⟩
  | case2 t ih => exact ih (chain_single.symm.trans hc)
  | case3 t u ts =>
    obtain ⟨l, r, hl, hr, rfl⟩ := chains_cons_eq_some.1 (chain_all.symm.trans hc)
    exact .inr ⟨.conj, by simp, rfl⟩
  | case4 => exact .inl rfl

/-- An operand that is read back fits where it stands. -/
theorem faithful_operand {n : Nat} (hread : ∀ c, e.chain = some c → readChain c = some e.spelled →
    e.Faithful) (hc : e.enclose e.chain = some c) (hreads : Parses n c e.spelled) (hn : n ≤ 3) :
    e.Faithful ∧ e.Fits n := by
  unfold enclose at hc
  split at hc
  · rename_i hcompound
    obtain ⟨d, hd, hc⟩ := Option.bind_eq_some_iff.1 hc
    obtain ⟨t, ht, rfl⟩ := Option.map_eq_some_iff.1 hc
    rw [← hreads.eq_of_tree] at ht
    exact ⟨hread d hd ht, .inl hcompound⟩
  · refine ⟨hread c hc (readChain_eq_some_iff.2 (.inl (hreads.mono hn))), .inr ?_⟩
    rcases rank_chain hc with h | ⟨p, hp, hrank⟩
    · exact h ▸ Nat.zero_le n
    · exact hrank ▸ hreads.rank_le p hp

theorem faithful_terms {ts : List Expr} (hspell : ∀ x ∈ ts, x.Spellable)
    (hread : ∀ x ∈ ts, ∀ c, x.chain = some c → readChain c = some x.spelled → x.Faithful)
    (hc : chains ts = some c) (hterms : ParsesTerms c (spelledAll ts)) :
    ∀ x ∈ ts, x.Faithful ∧ x.Fits 3 := by
  induction ts generalizing c with
  | nil => exact nofun
  | cons t ts ih =>
    obtain ⟨hts, htss⟩ := List.forall_mem_cons.1 hspell
    obtain ⟨htr, htsr⟩ := List.forall_mem_cons.1 hread
    cases ts with
    | nil =>
      cases hterms with
      | one hreads => exact List.forall_mem_singleton.2 (faithful_operand htr hc hreads le_rfl)
      | more _ hnone => cases hnone
    | cons u ts =>
      obtain ⟨l, r, hl, hr, rfl⟩ := chains_cons_eq_some.1 hc
      generalize hd : l ++ .conj :: r = d at hterms
      rw [spelledAll] at hterms
      cases hterms with
      | more hreads hrest =>
        have hcount := (joints_enclose (fun _ => hts.joints_chain) hl).trans hreads.joints.symm
        obtain ⟨rfl, rfl⟩ := append_inj_of_joints hd rfl rfl hcount
        exact List.forall_mem_cons.2 ⟨faithful_operand htr hl hreads le_rfl,
          ih htss htsr hr hrest⟩

theorem Spellable.faithful (h : e.Spellable) (hc : e.chain = some c)
    (hread : readChain c = some e.spelled) : e.Faithful := by
  induction h generalizing c with
  | ident h => exact .ident _
  | const width value => exact .const width value
  | unary op hx ih =>
    obtain ⟨d, hd, rfl⟩ := chain_unary_eq_some.1 hc
    rw [spelled] at hread
    rcases readChain_eq_some_iff.1 hread with hreads | ⟨_, _, _, -, heq⟩
    · obtain ⟨hfaithful, hfits⟩ := faithful_operand (fun _ => ih) hd hreads.of_unary (Nat.zero_le 3)
      exact .unary op hfaithful hfits
    · cases heq
  | @binary op hop x y hx hy ihx ihy =>
    have hpos := op.rank_pos
    have hle := op.rank_le
    obtain ⟨l, r, hl, hr, rfl⟩ := chain_binary_eq_some.1 hc
    rw [spelled] at hread
    rcases readChain_eq_some_iff.1 hread with hreads | ⟨_, _, _, -, heq⟩
    · rcases hreads.of_binary with htree | ⟨l', r', hsplit, hlreads, hrreads⟩
      · have hmem : Piece.binary op ∈ [Piece.tree (.binary op x.spelled y.spelled)] :=
          htree ▸ by simp
        simp at hmem
      · have hcount := (joints_enclose (fun _ => hx.joints_chain) hl).trans hlreads.joints.symm
        obtain ⟨rfl, rfl⟩ := append_inj_of_joints hsplit rfl rfl hcount
        obtain ⟨hxf, hleft⟩ := faithful_operand (fun _ => ihx) hl hlreads hle
        obtain ⟨hyf, hright⟩ := faithful_operand (fun _ => ihy) hr hrreads (by omega)
        exact .binary hxf hyf hleft hright
    · cases heq
  | single ht ih =>
    rw [chain_single] at hc
    rw [spelled] at hread
    exact .single (ih hc hread)
  | @all t u ts h ih =>
    rw [chain_all] at hc
    rw [spelled_all] at hread
    rcases readChain_eq_some_iff.1 hread with hreads | ⟨x, y, zs, hterms, heq⟩
    · -- a conjunction is no single piece
      obtain ⟨l, r, hl, hr, hsplit⟩ := chains_cons_eq_some.1 hc
      have hmem : Piece.conj ∈ [Piece.tree (.all (spelledAll (t :: u :: ts)))] := by
        rw [← hreads.of_all, hsplit]
        simp
      simp at hmem
    · cases heq
      have hall := faithful_terms h (fun x hx _ => ih x hx) hc hterms
      exact .all (fun x hx => (hall x hx).1) fun x hx => (hall x hx).2

/-- An expression is read back exactly if its operands keep their operators to themselves. -/
theorem read_back_iff_faithful (h : e.Spellable) :
    Expr.ofText? e.text = some e.spelled ↔ e.Faithful := by
  rw [ofText?_text h, Option.bind_eq_some_iff]
  constructor
  · rintro ⟨c, hc, hread⟩
    exact h.faithful hc hread
  · intro hfaithful
    obtain ⟨c, hc, -, hread⟩ := hfaithful.readsBack
    exact ⟨c, hc, hread⟩

/-- The complement of an equality keeps its parentheses. -/
theorem complemented_equality_read_back :
    let e : Expr := .unary .complement (.binary .eq (.ident "a") (.ident "b"))
    e.Spellable ∧ e.Faithful ∧ Expr.ofText? e.text = some e.spelled := by
  have hspell : (Expr.unary .complement (.binary .eq (.ident "a") (.ident "b"))).Spellable :=
    .unary _ (.binary (by decide) (.ident (by decide)) (.ident (by decide)))
  have hfaithful : (Expr.unary .complement (.binary .eq (.ident "a") (.ident "b"))).Faithful :=
    .unary _ (.binary (.ident _) (.ident _) (.inr (by decide)) (.inr (by decide))) (.inl rfl)
  exact ⟨hspell, hfaithful, (read_back_iff_faithful hspell).2 hfaithful⟩

/-- The complement of a conjunction whose only term is an equality has none: the complement binds
to the left side of the equality. -/
theorem complemented_term_misread :
    let e : Expr := .unary .complement (.all [.binary .eq (.ident "a") (.ident "b")])
    e.Spellable ∧
      Expr.ofText? e.text = some (.binary .eq (.unary .complement (.ident "a")) (.ident "b")) ∧
      Expr.ofText? e.text ≠ some e.spelled := by
  have hterm : (Expr.binary .eq (.ident "a") (.ident "b")).Spellable :=
    .binary (by decide) (.ident (by decide)) (.ident (by decide))
  exact ⟨.unary _ (.single hterm), rfl, nofun⟩

mutual

/-- Whether a conjunction of one term is in an expression. -/
def hasSingle : Expr → Bool
  | .unary _ x => hasSingle x
  | .binary _ x y => hasSingle x || hasSingle y
  | .all [_] => true
  | .all ts => anySingle ts
  | _ => false

def anySingle : List Expr → Bool
  | [] => false
  | t :: ts => hasSingle t || anySingle ts

end

theorem anySingle_eq_false {ts : List Expr} :
    anySingle ts = false ↔ ∀ x ∈ ts, x.hasSingle = false := by
  induction ts with
  | nil => simp [anySingle]
  | cons t ts ih => simp [anySingle, ih]

/-- Only a conjunction of one term can fail to fit. -/
theorem fits_of_hasSingle (h : e.hasSingle = false) (n : Nat) : e.Fits n := by
  match e with
  | .absent | .ident _ | .const .. | .literal _ | .unary .. | .all [] => exact .inr (Nat.zero_le n)
  | .binary .. | .all (_ :: _ :: _) => exact .inl rfl
  | .all [t] =>
    rw [hasSingle] at h
    cases h

theorem Spellable.faithful_of_hasSingle (h : e.Spellable) (hno : e.hasSingle = false) :
    e.Faithful := by
  induction h with
  | ident h => exact .ident _
  | const width value => exact .const width value
  | unary op hx ih =>
    rw [hasSingle] at hno
    exact .unary op (ih hno) (fits_of_hasSingle hno 0)
  | binary hop hx hy ihx ihy =>
    rw [hasSingle, Bool.or_eq_false_iff] at hno
    exact .binary (ihx hno.1) (ihy hno.2) (fits_of_hasSingle hno.1 _) (fits_of_hasSingle hno.2 _)
  | single ht _ =>
    rw [hasSingle] at hno
    cases hno
  | @all t u ts h ih =>
    rw [hasSingle, anySingle_eq_false] at hno
    · exact .all (fun x hx => ih x hx (hno x hx)) fun x hx => fits_of_hasSingle (hno x hx) 3
    · simp

/-- The text of an expression without conjunctions of one term is read back. -/
theorem ofText?_text_of_hasSingle (h : e.Spellable) (hno : e.hasSingle = false) :
    Expr.ofText? e.text = some e.spelled := by
  obtain ⟨c, hc, -, hread⟩ := (h.faithful_of_hasSingle hno).readsBack
  rw [ofText?_text h, hc, Option.bind_some, hread]

end Expr

end TaskLoom
