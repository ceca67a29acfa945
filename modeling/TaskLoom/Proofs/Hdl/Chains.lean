import TaskLoom.Proofs.Hdl.Phrases
import TaskLoom.Proofs.Hdl.Precedence

/-!
# Reading the text of an expression

`Expr.ofText?` reads the text of an expression as a source is read: it is cut into the tokens of
`Source.tokens`, parentheses are resolved from the inside, and every chain of operators is read with
`readChain`.  Constants are not interpreted.

`Expr.chain` is the chain that the text of an expression amounts to, with the tree of each operand
in parentheses as one piece.  `Takes` says so for the reader in mid-text: whatever follows, and
whatever was read before, a text adds its own pieces to the chain at hand.

Main statement: the text of an expression is read by reading its chain (`ofText?_text`).
-/

namespace TaskLoom

inductive Lexeme where
  | opening
  | closing
  | piece (p : Piece)

namespace Source

/-- A name that could be an identifier. -/
def isIdentifier (s : String) : Bool :=
  match Text.bytes s with
  | [] => false
  | b :: l => startsName b && l.all continuesName

/-- The meaning of a token that stands for itself. -/
def single? (s : String) : Option Lexeme :=
  if s = "(" then some .opening
  else if s = ")" then some .closing
  else if s = "~" then some (.piece (.unary .complement))
  else if s = "!" then some (.piece (.unary .negation))
  else if s = "+" then some (.piece (.binary .add))
  else if s = "-" then some (.piece (.binary .sub))
  else if isIdentifier s then some (.piece (.tree (.ident s)))
  else if isNumber s then some (.piece (.tree (.literal s)))
  else none

/-- The meaning of a token that has to come twice. -/
def double? (s : String) : Option Piece :=
  if s = "=" then some (.binary .eq)
  else if s = "<" then some (.binary .shl)
  else if s = "&" then some .conj
  else none

/-- The lexemes of an expression.  Both halves of an operator stand next to each other. -/
def lexemes? : List Token → Option (List Lexeme)
  | [] => some []
  | [t] => (single? t.text).map fun l => [l]
  | t :: u :: ts =>
    match double? t.text with
    | some p =>
      if u.text = t.text ∧ u.offset = t.offset + 1 then (lexemes? ts).map (.piece p :: ·) else none
    | none => (single? t.text).bind fun l => (lexemes? (u :: ts)).map (l :: ·)

end Source

/-- Reads lexemes behind the pieces `ps` of a chain, where `outer` are the chains around it. -/
def readGroups : List Lexeme → (outer : List (List Piece)) → (ps : List Piece) → Option Expr
  | [], [], ps => readChain ps
  | [], _ :: _, _ => none
  | .opening :: ls, outer, ps => readGroups ls (ps :: outer) []
  | .closing :: _, [], _ => none
  | .closing :: ls, qs :: outer, ps =>
    (readChain ps).bind fun e => readGroups ls outer (qs ++ [.tree e])
  | .piece p :: ls, outer, ps => readGroups ls outer (ps ++ [p])

/-- Reads the text of an expression. -/
def Expr.ofText? (s : String) : Option Expr :=
  (Source.lexemes? (Source.tokens (Text.bytes s))).bind fun ls => readGroups ls [] []

/-- Expressions of identifiers, constants, operators with a meaning and conjunctions of terms. -/
inductive Expr.Spellable : Expr → Prop where
  | ident {name : String} (h : Source.isIdentifier name = true) : Spellable (.ident name)
  | const (width : Int) (value : UInt64) : Spellable (.const width value)
  | unary (op : UnaryOp) {x : Expr} (hx : Spellable x) : Spellable (.unary op x)
  | binary {op : BinaryOp} (hop : op ≠ .unknown) {x y : Expr} (hx : Spellable x)
      (hy : Spellable y) : Spellable (.binary op x y)
  | single {t : Expr} (ht : Spellable t) : Spellable (.all [t])
  | all {t u : Expr} {ts : List Expr} (h : ∀ x ∈ t :: u :: ts, Spellable x) :
      Spellable (.all (t :: u :: ts))

namespace Expr

/-- The chain of an operand: what stands in parentheses is one tree. -/
def enclose (e : Expr) (chain : Option (List Piece)) : Option (List Piece) :=
  if e.isCompound then chain.bind fun ps => (readChain ps).map fun t => [.tree t] else chain

mutual

/-- The chain that the text of an expression amounts to. -/
def chain : Expr → Option (List Piece)
  | .ident name => some [.tree (.ident name)]
  | .const width value => some [.tree (.literal (constText width value))]
  | .unary op x => (enclose x (chain x)).map (.unary op :: ·)
  | .binary op x y =>
    (enclose x (chain x)).bind fun l => (enclose y (chain y)).map fun r => l ++ .binary op :: r
  | .all [t] => chain t
  | .all ts => chains ts
  | .absent | .literal _ => none

/-- The chain of several operands with conjunctions between them. -/
def chains : List Expr → Option (List Piece)
  | [] => none
  | [t] => enclose t (chain t)
  | t :: ts => (enclose t (chain t)).bind fun l => (chains ts).map fun r => l ++ .conj :: r

end

section
variable {x y t u : Expr} {ts : List Expr} {c : List Piece}

theorem chain_unary_eq_some {op : UnaryOp} :
    chain (.unary op x) = some c ↔ ∃ d, enclose x (chain x) = some d ∧ c = .unary op :: d := by
  rw [chain, Option.map_eq_some_iff]
  exact exists_congr fun d => and_congr_right fun _ => eq_comm

theorem chain_binary_eq_some {op : BinaryOp} : chain (.binary op x y) = some c ↔
    ∃ l r, enclose x (chain x) = some l ∧ enclose y (chain y) = some r ∧
      c = l ++ .binary op :: r := by
  simp only [chain, Option.bind_eq_some_iff, Option.map_eq_some_iff]
  constructor
  · rintro ⟨l, hl, r, hr, rfl⟩
    exact ⟨l, r, hl, hr, rfl⟩
  · rintro ⟨l, r, hl, hr, rfl⟩
    exact ⟨l, hl, r, hr, rfl⟩

theorem chain_single : chain (.all [t]) = chain t := by
  rw [chain]

theorem chain_all : chain (.all (t :: u :: ts)) = chains (t :: u :: ts) := by
  rw [chain]
  simp

theorem chains_cons : chains (t :: u :: ts) =
    (enclose t (chain t)).bind fun l => (chains (u :: ts)).map fun r => l ++ .conj :: r := by
  rw [chains]
  exact List.cons_ne_nil u ts

theorem chains_cons_eq_some : chains (t :: u :: ts) = some c ↔
    ∃ l r, enclose t (chain t) = some l ∧ chains (u :: ts) = some r ∧ c = l ++ .conj :: r := by
  simp only [chains_cons, Option.bind_eq_some_iff, Option.map_eq_some_iff]
  constructor
  · rintro ⟨l, hl, r, hr, rfl⟩
    exact ⟨l, r, hl, hr, rfl⟩
  · rintro ⟨l, r, hl, hr, rfl⟩
    exact ⟨l, hl, r, hr, rfl⟩

end

end Expr

namespace Source

open Text (bytes)

theorem isIdentifier_bytes {s : String} (h : isIdentifier s = true) :
    ∃ b l, bytes s = b :: l ∧ startsName b = true ∧ ∀ x ∈ l, continuesName x = true := by
  unfold isIdentifier at h
  cases hs : bytes s with
  | nil => simp [hs] at h
  | cons b l =>
    simp only [hs, Bool.and_eq_true, List.all_eq_true] at h
    exact ⟨b, l, rfl, h⟩

/-- Marks that stand for themselves or come twice. -/
def exprMarks : List String := ["(", ")", "~", "!", "+", "-", "=", "<", "&"]

theorem single?_of_ne {s : String} (h : ∀ w ∈ exprMarks, s ≠ w) : single? s =
    if isIdentifier s then some (.piece (.tree (.ident s)))
    else if isNumber s then some (.piece (.tree (.literal s))) else none := by
  simp [exprMarks] at h
  simp [single?, h]

theorem double?_of_ne {s : String} (h : ∀ w ∈ exprMarks, s ≠ w) : double? s = none := by
  simp [exprMarks] at h
  simp [double?, h]

theorem single?_ident {s : String} (h : isIdentifier s = true) :
    single? s = some (.piece (.tree (.ident s))) ∧ double? s = none := by
  have hne : ∀ w ∈ exprMarks, s ≠ w := by
    rintro w hw rfl
    have hno : ∀ w ∈ exprMarks, isIdentifier w = false := by decide
    exact absurd h (by simp [hno s hw])
  exact ⟨by rw [single?_of_ne hne, if_pos h], double?_of_ne hne⟩

theorem single?_number {s : String} (h : isNumber s = true) :
    single? s = some (.piece (.tree (.literal s))) ∧ double? s = none := by
  have hne : ∀ w ∈ exprMarks, s ≠ w := by
    rintro w hw rfl
    have hno : ∀ w ∈ exprMarks, isNumber w = false := by decide
    exact absurd h (by simp [hno s hw])
  have hident : isIdentifier s = false := by
    obtain ⟨b, l, hs, hb, -⟩ := isNumber_bytes h
    simp [isIdentifier, hs, (startsWord_of_number hb).2]
  exact ⟨by rw [single?_of_ne hne, if_neg (by simp [hident]), if_pos h], double?_of_ne hne⟩

theorem lexemes?_single {t : Token} (h : double? t.text = none) (ts : List Token) :
    lexemes? (t :: ts) = (single? t.text).bind fun l => (lexemes? ts).map (l :: ·) := by
  cases ts with
  | nil => cases hl : single? t.text <;> simp [lexemes?, hl]
  | cons u ts => simp [lexemes?, h]

theorem lexemes?_double {t u : Token} {p : Piece} (h : double? t.text = some p)
    (htext : u.text = t.text) (hoff : u.offset = t.offset + 1) (ts : List Token) :
    lexemes? (t :: u :: ts) = (lexemes? ts).map (.piece p :: ·) := by
  simp [lexemes?, h, htext, hoff]

/-! ### Reading in mid-text -/

/-- Reads tokens behind the pieces `ps` of a chain, where `outer` are the chains around it. -/
def readTokens (ts : List Token) (outer : List (List Piece)) (ps : List Piece) : Option Expr :=
  (lexemes? ts).bind fun ls => readGroups ls outer ps

section
variable {t u : Token} {p : Piece} (ts : List Token) (outer : List (List Piece)) (ps : List Piece)

theorem readTokens_piece (h : single? t.text = some (.piece p) ∧ double? t.text = none) :
    readTokens (t :: ts) outer ps = readTokens ts outer (ps ++ [p]) := by
  rw [readTokens, lexemes?_single h.2, h.1, Option.bind_some, Option.bind_map]
  rfl

theorem readTokens_double (h : double? t.text = some p) (htext : u.text = t.text)
    (hoff : u.offset = t.offset + 1) :
    readTokens (t :: u :: ts) outer ps = readTokens ts outer (ps ++ [p]) := by
  rw [readTokens, lexemes?_double h htext hoff, Option.bind_map]
  rfl

theorem readTokens_opening (h : t.text = "(") :
    readTokens (t :: ts) outer ps = readTokens ts (ps :: outer) [] := by
  rw [readTokens, lexemes?_single (h ▸ by decide), h, show single? "(" = some .opening from rfl,
    Option.bind_some, Option.bind_map]
  rfl

theorem readTokens_closing (h : t.text = ")") (qs : List Piece) :
    readTokens (t :: ts) (qs :: outer) ps =
      (readChain ps).bind fun e => readTokens ts outer (qs ++ [.tree e]) := by
  rw [readTokens, lexemes?_single (h ▸ by decide), h, show single? ")" = some .closing from rfl,
    Option.bind_some, Option.bind_map]
  exact Option.bind_comm _ _

end

/-- Whatever follows, the text adds the pieces to the chain at hand. -/
def Marks (s : String) (c : List Piece) : Prop :=
  ∀ rest off outer ps, readTokens (tokensFrom off 0 (bytes s ++ rest)) outer ps =
    readTokens (tokensFrom (off + (bytes s).length) 0 rest) outer (ps ++ c)

/-- Unless it is prolonged, the text adds the pieces to the chain at hand. -/
def Takes (s : String) (o : Option (List Piece)) : Prop :=
  ∀ rest, Opens rest → ∀ off outer ps, readTokens (tokensFrom off 0 (bytes s ++ rest)) outer ps =
    o.bind fun c => readTokens (tokensFrom (off + (bytes s).length) 0 rest) outer (ps ++ c)

theorem Marks.takes {s : String} {c : List Piece} (h : Marks s c) : Takes s (some c) :=
  fun rest _ => h rest

/-- What is taken in front of a text that does not prolong it. -/
theorem Takes.append {s t : String} {l r : Option (List Piece)} (hs : Takes s l) (ht : Takes t r)
    (hopens : ∀ rest, Opens (bytes t ++ rest)) :
    Takes (s ++ t) (l.bind fun c => r.map fun d => c ++ d) := by
  intro rest hrest off outer ps
  rw [Text.bytes_append, List.append_assoc, hs _ (hopens rest), Option.bind_assoc]
  refine congrArg l.bind (funext fun c => ?_)
  rw [ht _ hrest, Option.bind_map, List.length_append, Nat.add_assoc]
  simp only [Function.comp_def, List.append_assoc]

theorem Marks.append {s t : String} {c : List Piece} {o : Option (List Piece)} (hs : Marks s c)
    (ht : Takes t o) : Takes (s ++ t) (o.map fun d => c ++ d) := by
  intro rest hrest off outer ps
  rw [Text.bytes_append, List.append_assoc, hs, ht _ hrest, Option.bind_map, List.length_append,
    Nat.add_assoc]
  simp only [Function.comp_def, List.append_assoc]

/-- Two operands with an operator between them. -/
theorem Takes.between {s m t : String} {p : Piece} {l r : Option (List Piece)} (hs : Takes s l)
    (hm : Marks m [p]) (ht : Takes t r) (hopen : isOpenText m = true) :
    Takes (s ++ m ++ t) (l.bind fun c => r.map fun d => c ++ p :: d) := by
  have hall := hs.append (hm.append ht) fun rest => by
    rw [Text.bytes_append, List.append_assoc]
    exact opens_text_append hopen _
  simpa only [String.append_assoc, Option.map_map, Function.comp_def, List.singleton_append]
    using hall

/-- A byte that is a token by itself. -/
def isMark (b : UInt8) : Bool :=
  !isSpace b && b != ascii '"' && b != ascii '\\' && !startsWord b

theorem tokensFrom_isMark {b : UInt8} (h : isMark b = true) (off : Nat) (rest : List UInt8) :
    tokensFrom off 0 (b :: rest) = ⟨[b], off⟩ :: tokensFrom (off + 1) 0 rest := by
  simp only [isMark, Bool.and_eq_true, bne_iff_ne, Bool.not_eq_true'] at h
  exact tokensFrom_mark h.1.1.1 h.1.1.2 h.1.2 h.2 off rest

/-- The text of a token of one byte. -/
theorem text_mark {s : String} {b : UInt8} (hs : bytes s = [b]) (off : Nat) :
    Token.text ⟨[b], off⟩ = s := by
  rw [← hs]
  exact Text.ofBytes_bytes s

/-- A text in parentheses. -/
theorem Takes.parenthesized {s : String} {o : Option (List Piece)} (h : Takes s o) :
    Takes ("(" ++ s ++ ")") (o.bind fun c => (readChain c).map fun t => [.tree t]) := by
  have hopening : bytes "(" = [40] := by decide
  have hclosing : bytes ")" = [41] := by decide
  intro rest hrest off outer ps
  have hopens : Opens ([41] ++ rest) := hclosing ▸ opens_text_append (by decide) rest
  rw [Text.bytes_append, Text.bytes_append, hopening, hclosing, List.append_assoc,
    List.append_assoc, List.singleton_append, tokensFrom_isMark (by decide),
    readTokens_opening _ _ _ (text_mark hopening off), h _ hopens, Option.bind_assoc]
  refine congrArg o.bind (funext fun c => ?_)
  rw [List.singleton_append, tokensFrom_isMark (by decide),
    readTokens_closing _ _ _ (text_mark hclosing _), Option.bind_map]
  simp only [List.length_append, List.length_singleton, Nat.add_assoc, Nat.add_comm 1]
  rfl

theorem Takes.operand {e : Expr} (h : Takes e.text e.chain) :
    Takes (e.parenthesize e.text) (e.enclose e.chain) := by
  unfold Expr.parenthesize Expr.enclose
  split
  · exact h.parenthesized
  · exact h

theorem Takes.word {s : String} {b : UInt8} {l : List UInt8} {p : Piece} (hs : bytes s = b :: l)
    (hb : startsWord b = true) (hl : ∀ x ∈ l, continuesWord x = true)
    (h : single? s = some (.piece p) ∧ double? s = none) : Takes s (some [p]) := by
  intro rest hrest off outer ps
  rw [hs, List.cons_append, tokensFrom_word hb hl hrest, ← hs]
  have htext : Token.text ⟨bytes s, off⟩ = s := Text.ofBytes_bytes s
  exact readTokens_piece _ _ _ (htext.symm ▸ h)

theorem Marks.single {s : String} {b : UInt8} {p : Piece} (hs : bytes s = [b])
    (hb : isMark b = true) (h : single? s = some (.piece p) ∧ double? s = none) :
    Marks s [p] := by
  intro rest off outer ps
  rw [hs, List.singleton_append, tokensFrom_isMark hb,
    readTokens_piece _ _ _ ((text_mark hs off).symm ▸ h), List.length_singleton]

theorem Marks.double {s : String} {b : UInt8} {p : Piece} (hs : bytes s = [b])
    (hb : isMark b = true) (h : double? s = some p) : Marks (s ++ s) [p] := by
  intro rest off outer ps
  have htext := text_mark hs
  rw [Text.bytes_append, hs, List.append_assoc, List.singleton_append, List.singleton_append,
    tokensFrom_isMark hb, tokensFrom_isMark hb,
    readTokens_double _ _ _ ((htext off).symm ▸ h) ((htext _).trans (htext _).symm) rfl]
  rfl

theorem Marks.spaced {s : String} {c : List Piece} (h : Marks s c) : Marks (" " ++ s ++ " ") c := by
  have hspace : bytes " " = [32] := by decide
  intro rest off outer ps
  rw [Text.bytes_append, Text.bytes_append, hspace, List.append_assoc, List.append_assoc,
    List.singleton_append, tokensFrom_space (by decide), h, List.singleton_append,
    tokensFrom_space (by decide)]
  simp only [List.length_append, List.length_singleton, Nat.add_assoc, Nat.add_comm 1]

theorem UnaryOp.marks (op : UnaryOp) : Marks op.text [.unary op] := by
  cases op with
  | complement => exact .single (b := 126) (by decide) (by decide) ⟨rfl, rfl⟩
  | negation => exact .single (b := 33) (by decide) (by decide) ⟨rfl, rfl⟩

theorem BinaryOp.marks {op : BinaryOp} (hop : op ≠ .unknown) :
    Marks (" " ++ op.text ++ " ") [.binary op] := by
  refine Marks.spaced ?_
  cases op with
  | eq => exact .double (s := "=") (b := 61) (by decide) (by decide) rfl
  | sub => exact .single (b := 45) (by decide) (by decide) ⟨rfl, rfl⟩
  | add => exact .single (b := 43) (by decide) (by decide) ⟨rfl, rfl⟩
  | shl => exact .double (s := "<") (b := 60) (by decide) (by decide) rfl
  | unknown => exact absurd rfl hop

theorem marks_conj : Marks " && " [.conj] :=
  Marks.spaced (s := "&&") (.double (s := "&") (b := 38) (by decide) (by decide) rfl)

theorem takes_operands {ts : List Expr} (hne : ts ≠ [])
    (h : ∀ x ∈ ts, Takes x.text x.chain) :
    Takes (String.intercalate " && " (Expr.operands ts)) (Expr.chains ts) := by
  induction ts with
  | nil => exact absurd rfl hne
  | cons t ts ih =>
    obtain ⟨ht, hts⟩ := List.forall_mem_cons.1 h
    cases ts with
    | nil =>
      rw [Expr.operands, Expr.operands, String.intercalate_singleton, Expr.chains]
      exact ht.operand
    | cons u ts =>
      have hrest := ih (List.cons_ne_nil u ts) hts
      rw [Expr.operands, Expr.operands, String.intercalate_cons_cons, Expr.chains_cons]
      exact ht.operand.between marks_conj hrest (by decide)

theorem takes_text {e : Expr} (h : e.Spellable) : Takes e.text e.chain := by
  induction h with
  | @ident name h =>
    obtain ⟨b, l, hs, hb, hl⟩ := isIdentifier_bytes h
    exact .word hs (startsWord_of_startsName hb).1
      (fun x hx => continuesWord_of_continuesName (hl x hx)) (single?_ident h)
  | const width value =>
    have hnum := isNumber_constText width value
    obtain ⟨b, l, hs, hb, hl⟩ := isNumber_bytes hnum
    exact .word hs (startsWord_of_number hb).1 hl (single?_number hnum)
  | unary op hx ih =>
    rw [Expr.text, Expr.chain]
    exact (UnaryOp.marks op).append ih.operand
  | @binary op hop x y hx hy ihx ihy =>
    have htext : (Expr.binary op x y).text = x.parenthesize x.text ++ (" " ++ op.text ++ " ") ++
        y.parenthesize y.text := by
      simp [Expr.text, String.append_assoc]
    rw [htext, Expr.chain]
    refine ihx.operand.between (BinaryOp.marks hop) ihy.operand ?_
    cases op <;> decide
  | single ht ih =>
    rw [Expr.text, Expr.chain_single]
    exact ih
  | @all t u ts h ih =>
    rw [Expr.text, Expr.chain_all]
    exact takes_operands (List.cons_ne_nil t (u :: ts)) ih

end Source

theorem Expr.ofText?_text {e : Expr} (h : e.Spellable) :
    Expr.ofText? e.text = e.chain.bind readChain := by
  have hread := Source.takes_text h [] nofun 0 [] []
  rw [List.append_nil] at hread
  exact hread

end TaskLoom
