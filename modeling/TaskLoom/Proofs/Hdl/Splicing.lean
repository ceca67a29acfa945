import TaskLoom.Output
import TaskLoom.Proofs.Hdl.Locality
import TaskLoom.Proofs.Hdl.Positions
import TaskLoom.Proofs.Hdl.Scanning

/-!
# Sources without some of their modules

A source is kept without the modules that are generated: the pieces of the other ones are put
together, each on lines of its own.  A piece of a tidy source is scanned and read there as it was
in its old place (`exists_extract`), so that the new source has the other modules, unchanged and in
order: `parse_keptText`.
-/

namespace TaskLoom

namespace Source

open Text (bytes)

/-- A token of a text that stood at `off` and now stands at `off'`. -/
def Token.moved (off off' : Nat) (t : Token) : Token := ⟨t.bytes, t.offset - off + off'⟩

theorem tokensFrom_moved (off off' n k : Nat) (l : List UInt8) :
    tokensFrom (off' + n) k l = (tokensFrom (off + n) k l).map (Token.moved off off') := by
  induction l generalizing n k with
  | nil => simp [tokensFrom]
  | cons b l ih =>
    cases k with
    | succ k => exact ih (n + 1) k
    | zero =>
      unfold tokensFrom
      split
      · exact ih (n + 1) 0
      · have hoff : off + n - off + off' = off' + n := by omega
        rw [List.map_cons, Token.moved, hoff]
        exact congrArg _ (ih (n + 1) _)

/-- The tokens of a text stand within it. -/
theorem tokensFrom_within {off k : Nat} {l : List UInt8} {t : Token} (ht : t ∈ tokensFrom off k l) :
    off ≤ t.offset ∧ t.offset + t.bytes.length ≤ off + l.length :=
  (spans_tokensFrom off k l).1.within t ht

/-- The text between two tokens of a piece is in the piece. -/
theorem spanText_moved {before before' s after after' : List UInt8} {ts : List Token}
    (hts : ∀ t ∈ ts, before.length ≤ t.offset ∧
      t.offset + t.bytes.length ≤ before.length + s.length) :
    spanText (before' ++ (s ++ after')) (ts.map (Token.moved before.length before'.length)) =
      spanText (before ++ (s ++ after)) ts := by
  have hslice (clean rest : List UInt8) (i n : Nat) (hn : i + n ≤ s.length) :
      ((clean ++ (s ++ rest)).drop (i + clean.length)).take n = (s.drop i).take n := by
    rw [Nat.add_comm, List.drop_length_add_append, List.drop_append_of_le_length (by omega),
      List.take_append_of_le_length (by rw [List.length_drop]; omega)]
  unfold spanText
  rw [List.head?_map, List.getLast?_map]
  cases ha : ts.head? with
  | none => rfl
  | some a =>
    cases hb : ts.getLast? with
    | none => rfl
    | some b =>
      obtain ⟨ha₁, ha₂⟩ := hts a (List.mem_of_head? ha)
      obtain ⟨hb₁, hb₂⟩ := hts b (List.mem_of_mem_getLast? hb)
      simp only [Option.map_some, Token.moved]
      have hplace : a.offset = a.offset - before.length + before.length := by omega
      have hlength : b.offset - before.length + before'.length + b.bytes.length -
          (a.offset - before.length + before'.length) = b.offset + b.bytes.length - a.offset := by
        omega
      rw [hlength, hslice before' after' _ _ (by omega)]
      conv_rhs => rw [hplace]
      rw [hslice before after _ _ (by omega), ← hplace]

/-! ### Pieces that are modules -/

/-- The words that begin a module. -/
def beginsModule (t : Token) : Bool := t.text == "module" || t.text == "macromodule"

/-- The piece `s`, which is blanked out to `s'`, is a module before the end `q` of a source: on
lines of its own it is scanned and read in the same way, if no attribute is closed behind it that
was open. -/
structure Extract (q : List UInt8) (name : String) (b : Body) (s s' : List UInt8) : Prop where
  ends : ∃ l, s = ascii 'm' :: (l ++ [ascii 'e'])
  length_eq : s'.length = s.length
  strip : ∀ start z,
    (upTo? (ascii '*') (ascii ')') q = none → upTo? (ascii '*') (ascii ')') z = none) →
      stripFrom 0 0 start (s ++ newline :: z) = s' ++ newline :: stripFrom 0 0 true z
  read : ∀ before c, ∃ t ts, beginsModule t = true ∧ t.offset = before.length ∧
    tokensFrom before.length 0 (s' ++ newline :: c) = t :: ts ∧
    moduleParts (before ++ (s' ++ newline :: c)) ts =
      .ok ((name, { b with stop := before.length + s.length }),
        tokensFrom (before.length + s.length) 0 (newline :: c))

theorem word_bytes {t : Token} {w : String} (h : t.text = w)
    (hw : Text.isAscii w = true) : t.bytes = bytes w := Text.bytes_of_ofBytes h hw

theorem beginsModule_bytes {t : Token} (h : beginsModule t = true) :
    ∃ l, t.bytes = ascii 'm' :: l := by
  simp only [beginsModule, Bool.or_eq_true, beq_iff_eq] at h
  rcases h with h | h
  · exact ⟨_, word_bytes h (by decide)⟩
  · exact ⟨_, word_bytes h (by decide)⟩

theorem stripFrom_newline (start : Bool) (z : List UInt8) :
    stripFrom 0 0 start (newline :: z) = newline :: stripFrom 0 0 true z := by
  have hplain : treatment start newline z = .plain := treatment_plain (by decide) (by decide)
    fun y _ => ⟨fun hy => absurd hy.1 (by decide), fun hy => absurd hy.1 (by decide)⟩
  rw [stripFrom, hplain]
  rfl

theorem upTo?_words {x y : UInt8} {l q : List UInt8} (h : ∀ b ∈ l, b ≠ x) :
    upTo? x y (l ++ q) = none ↔ upTo? x y q = none := by
  induction l with
  | nil => rfl
  | cons b l ih =>
    rw [List.cons_append, upTo?_cons_eq_none (h b List.mem_cons_self),
      ih fun c hc => h c (List.mem_cons_of_mem _ hc)]

section
variable {before clean s s' q c : List UInt8} {start e : Bool} {t u : Token}
  {name : String} {b : Body}

/-- The word for the end of a module is the same wherever it stands. -/
theorem isWord_end : ∀ x ∈ bytes "endmodule", isWord x = true :=
  List.all_eq_true.1 (by decide)

/-- A piece before the word for the end of a module is scanned in the same way before that word in
another source. -/
theorem Scanned.strip_end (h : Scanned (bytes "endmodule" ++ q) start (ascii 'm' :: s) s' e)
    (start' : Bool) {z : List UInt8}
    (hq : upTo? (ascii '*') (ascii ')') q = none → upTo? (ascii '*') (ascii ')') z = none) :
    stripFrom 0 0 start' (ascii 'm' :: s ++ bytes "endmodule" ++ newline :: z) =
      s' ++ bytes "endmodule" ++ newline :: stripFrom 0 0 true z := by
  have hwords : ∀ x ∈ bytes "ndmodule", x ≠ ascii '*' := fun x hx =>
    (isWord_ne (isWord_end x (List.mem_cons_of_mem _ hx))).2.2.2.2.1
  have hclosed (hnone : upTo? (ascii '*') (ascii ')') (bytes "ndmodule" ++ q) = none) :
      upTo? (ascii '*') (ascii ')') (bytes "ndmodule" ++ newline :: z) = none := by
    rw [upTo?_words hwords] at hnone ⊢
    exact (upTo?_cons_eq_none (by decide)).2 (hq hnone)
  have hend : bytes "endmodule" = ascii 'e' :: bytes "ndmodule" := by decide
  rw [hend, List.cons_append] at h
  have hmoved := (h.swap (by decide) hclosed).of_quiet (by decide) (by decide) start'
  rw [← List.cons_append, ← hend] at hmoved
  have hword := scanned_quiet (fun x hx => isQuiet_word (isWord_end x hx)) (newline :: z) e
  rw [(hmoved.append hword).strip, stripFrom_newline]

/-- The tokens of a piece, moved, and the word for the end behind them. -/
theorem tokensFrom_end {off : Nat} (us : List Token)
    (h : ∀ c, (∀ y ∈ c.head?, isSpace y = true ∨ y = ascii 'e') →
      tokensFrom off 0 (s' ++ c) = us ++ tokensFrom (off + s.length) 0 c) (off' : Nat) :
    tokensFrom off' 0 (s' ++ bytes "endmodule" ++ newline :: c) =
      us.map (Token.moved off off') ++ ⟨bytes "endmodule", off' + s.length⟩ ::
        tokensFrom (off' + (s ++ bytes "endmodule").length) 0 (newline :: c) := by
  have hcut := h (bytes "endmodule" ++ newline :: c) fun y hy => .inr (Option.some.inj hy).symm
  have hmoved := tokensFrom_moved off off' 0 0 (s' ++ (bytes "endmodule" ++ newline :: c))
  rw [Nat.add_zero, Nat.add_zero, hcut, List.map_append, ← tokensFrom_moved] at hmoved
  have hopen : Opens (newline :: c) := fun y hy => by
    rw [← Option.some.inj hy]
    decide
  have hword : tokensFrom (off' + s.length) 0 (bytes "endmodule" ++ newline :: c) =
      ⟨bytes "endmodule", off' + s.length⟩ ::
        tokensFrom (off' + s.length + (bytes "endmodule").length) 0 (newline :: c) :=
    tokensFrom_word (b := ascii 'e') (l := bytes "ndmodule") (by decide)
      (List.all_eq_true.1 (by decide)) hopen _
  rw [List.append_assoc, hmoved, hword, List.length_append, Nat.add_assoc]

end

/-- A piece of a source that stands between other texts in another source, with its tokens up to a
word that ends a module. -/
def Window.splice (before after before' after' s : List UInt8) (us : List Token)
    (stop stop' : List Token) (hus : ∀ t ∈ us, before.length ≤ t.offset ∧
      t.offset + t.bytes.length ≤ before.length + s.length)
    (hstop : headText stop = "endmodule") (hstop' : headText stop' = "endmodule") : Window where
  clean := before ++ (s ++ after)
  clean' := before' ++ (s ++ after')
  move := Token.moved before.length before'.length
  tokens := us
  stop := stop
  stop' := stop'
  bytes_move _ := rfl
  span_move _ hts := spanText_moved fun t ht => hus t (hts ht)
  head_stop := hstop
  head_stop' := hstop'

/-- A module is read from the same tokens between other texts. -/
theorem moduleParts_spliced {before after s : List UInt8} {us rest : List Token} {u : Token}
    {name : String} {b : Body}
    (h : moduleParts (before ++ (s ++ after)) (us ++ u :: rest) = .ok ((name, b), rest))
    (hus : ∀ t ∈ us, before.length ≤ t.offset ∧
      t.offset + t.bytes.length ≤ before.length + s.length)
    (hu : u.text = "endmodule") (before' after' : List UInt8) {u' : Token}
    (hu' : u'.text = "endmodule") (rest' : List Token) :
    moduleParts (before' ++ (s ++ after'))
      (us.map (Token.moved before.length before'.length) ++ u' :: rest') =
        .ok ((name, { b with stop := u'.offset + u'.bytes.length }), rest') :=
  (Window.splice before after before' after' s us (u :: rest) (u' :: rest') hus hu
    hu').moduleParts_moved ⟨us, List.Subset.refl us, rfl, rfl⟩ rfl rfl h

/-- The piece of a module that was read, from its keyword to the word for its end. -/
theorem exists_extract {before src : List UInt8} {start : Bool} {t : Token}
    {skipped ts rest : List Token} {name : String} {b : Body}
    (ht : tokensFrom before.length 0 (stripFrom 0 0 start src) = skipped ++ t :: ts)
    (hbegins : beginsModule t = true) (htidy : ∀ u ∈ skipped ++ t :: ts, u.isTidy = true)
    (h : moduleParts (before ++ stripFrom 0 0 start src) ts = .ok ((name, b), rest)) :
    ∃ p p' s s' q e, src = p ++ (s ++ q) ∧
      stripFrom 0 0 start src = p' ++ (s' ++ stripFrom 0 0 e q) ∧ p'.length = p.length ∧
      t.offset = before.length + p.length ∧ b.stop = t.offset + s.length ∧
      rest = tokensFrom b.stop 0 (stripFrom 0 0 e q) ∧ Extract q name b s s' := by
  obtain ⟨us, u, rfl, hend, hstop⟩ := moduleParts_ends h
  -- the scanner stands before the keyword, and then before the word for the end
  obtain ⟨p, p', r, e₀, rfl, hp, hfirst, -⟩ :=
    exists_scanned skipped ht fun v hv => htidy v (List.mem_append_left _ hv)
  obtain ⟨s₁, s₁', r₁, e₁, rfl, hs₁, hlast, htokens⟩ :=
    exists_scanned (t :: us) hfirst.tokens fun v hv =>
      htidy v (List.mem_append_right _ (List.mem_append_left (u :: rest) hv))
  have hbytes : u.bytes = bytes "endmodule" := word_bytes hend (by decide)
  obtain ⟨hplace, c, hc, -⟩ := hfirst.split
  obtain ⟨hplace', d, hd, hrest⟩ := hlast.split
  rw [hbytes] at hd hrest hstop htokens
  have hspace : ∀ x ∈ bytes "endmodule", isSpace x = false := fun x hx =>
    (isWord_ne (isWord_end x hx)).2.1
  obtain ⟨q, e, rfl, hword, rfl⟩ := scanned_kept hspace (by decide) hd
  have hcut := htokens [] (by simp)
  rw [List.append_nil, tokensFrom, List.append_nil] at hcut
  obtain ⟨l, rfl⟩ : ∃ l, s₁ = ascii 'm' :: l := by
    obtain ⟨k, hk⟩ := beginsModule_bytes hbegins
    rw [hk] at hc
    obtain ⟨r', -, hr', -⟩ := scanned_kept (l := [ascii 'm'])
      (List.forall_mem_singleton.2 (by decide)) (by decide) hc
    cases s₁ with
    | nil =>
      rw [List.eq_nil_of_length_eq_zero hs₁.length_eq] at hcut
      simp [tokensFrom] at hcut
    | cons x l => exact ⟨l, by rw [(List.cons.inj hr').1]⟩
  have hclean : stripFrom 0 0 e₀ (ascii 'm' :: l ++ (bytes "endmodule" ++ q)) =
      s₁' ++ bytes "endmodule" ++ stripFrom 0 0 e q := by
    rw [hs₁.strip, hd, List.append_assoc]
  have hlength : (s₁' ++ bytes "endmodule").length =
      (ascii 'm' :: l ++ bytes "endmodule").length := by
    rw [List.length_append, List.length_append, hs₁.length_eq]
  refine ⟨p, p', ascii 'm' :: l ++ bytes "endmodule", s₁' ++ bytes "endmodule", q, e,
    by simp only [List.append_assoc], by rw [hp.strip, hclean], hp.length_eq, hplace, ?_, ?_,
    ⟨l ++ bytes "endmodul", by simp; decide⟩, hlength, fun start' z hz => hs₁.strip_end start' hz,
    fun before' c' => ?_⟩
  · rw [hstop, hplace', hplace, List.length_append, Nat.add_assoc]
  · rw [hrest, hstop, hplace']
  · have hoff : before.length + p.length = (before ++ p').length := by
      rw [List.length_append, hp.length_eq]
    rw [hoff] at hcut htokens
    have hus : ∀ v ∈ us, (before ++ p').length ≤ v.offset ∧
        v.offset + v.bytes.length ≤ (before ++ p').length + s₁'.length := fun v hv =>
      tokensFrom_within (k := 0) (by rw [hcut]; exact List.mem_cons_of_mem t hv)
    rw [hp.strip, hclean, List.append_assoc s₁', ← List.append_assoc before] at h
    have hend' : Token.text ⟨bytes "endmodule", before'.length + (ascii 'm' :: l).length⟩ =
        "endmodule" := Text.ofBytes_bytes "endmodule"
    have hread := moduleParts_spliced h hus hend before' (bytes "endmodule" ++ newline :: c') hend'
      (tokensFrom (before'.length + (ascii 'm' :: l ++ bytes "endmodule").length) 0 (newline :: c'))
    have htokens' := tokensFrom_end (s := ascii 'm' :: l) (c := c') (t :: us)
      (fun c hhead => htokens c fun y hy => (hhead y hy).imp_right fun he => by rw [he]; rfl)
      before'.length
    refine ⟨t.moved (before ++ p').length before'.length, _, hbegins, ?_, htokens', ?_⟩
    · rw [Token.moved, hplace, hoff, Nat.sub_self, Nat.zero_add]
    · rw [List.append_assoc s₁']
      refine hread.trans ?_
      simp only [List.length_append, Nat.add_assoc]

/-! ### Putting pieces together -/

/-- The pieces of some modules, each on lines of its own. -/
def joined (ms : List Module) : List UInt8 :=
  bytes (String.intercalate "\n" (ms.map Module.verbatim))

/-- What stands behind the piece of a module and the end of its line. -/
def following : List Module → List UInt8
  | [] => []
  | m :: ms => newline :: joined (m :: ms)

theorem joined_cons (m : Module) (ms : List Module) :
    joined (m :: ms) = bytes m.verbatim ++ following ms := by
  cases ms with
  | nil => simp [joined, following]
  | cons m' ms =>
    rw [joined, List.map_cons, List.map_cons, String.intercalate_cons_cons, Text.bytes_append,
      Text.bytes_append, List.append_assoc]
    rfl

/-- The piece of a module in a source is its own text, without blanks at its ends. -/
theorem Extract.verbatim {q s s' before : List UInt8} {name : String} {b : Body} {text : String}
    (h : Extract q name b s s') (htext : bytes text = before ++ (s ++ q)) :
    bytes (Text.trim (Text.ofBytes s) ++ "\n") = s ++ [newline] := by
  obtain ⟨l, rfl⟩ := h.ends
  obtain ⟨v, hv⟩ := Text.exists_piece (by decide) (by decide) htext
  have hends (c : Char) (hc : c.toNat = 109 ∨ c.toNat = 101) : Text.isBlank c = false := by
    rcases hc with hc | hc <;> simp [Text.isBlank, hc]
  have hfirst : ∀ c ∈ v.toList.head?, Text.isBlank c = false := by
    intro c hc
    obtain ⟨d, hd, hcode⟩ := Text.head_char (s := v) (b := ascii 'm') (by rw [hv]; rfl) (by decide)
    obtain rfl : d = c := Option.some.inj (hd.symm.trans hc)
    exact hends d (.inl hcode)
  have hlast : ∀ c ∈ v.toList.getLast?, Text.isBlank c = false := by
    intro c hc
    obtain ⟨d, hd, hcode⟩ := Text.last_char (s := v) (b := ascii 'e')
      (by rw [hv, ← List.cons_append]; exact List.getLast?_concat) (by decide)
    obtain rfl : d = c := Option.some.inj (hd.symm.trans hc)
    exact hends d (.inr hcode)
  rw [Text.bytes_append, ← hv, Text.ofBytes_bytes, Text.trim_of_ends hfirst hlast]
  rfl

/-- The joined pieces of some modules are read as these modules, wherever they stand. -/
def Rereads (ms : List Module) : Prop :=
  ∀ (before before' : List UInt8) (start : Bool) (fuel : Nat), before'.length = before.length →
    (tokensFrom before'.length 0 (stripFrom 0 0 start (joined ms))).length < fuel →
    modulesFrom (before ++ joined ms) (before' ++ stripFrom 0 0 start (joined ms)) fuel
      (tokensFrom before'.length 0 (stripFrom 0 0 start (joined ms))) = .ok ms

theorem Rereads.nil : Rereads [] := by
  intro before before' start fuel _ hfuel
  obtain ⟨fuel, rfl⟩ : ∃ k, fuel = k + 1 := ⟨fuel - 1, by omega⟩
  rfl

theorem mapError_ok {ε ε' α : Type} {x : Except ε α} {f : ε → ε'} {a : α} :
    x.mapError f = .ok a ↔ x = .ok a := by
  cases x <;> simp [Except.mapError]

theorem modulesFrom_nil (src clean : List UInt8) (fuel : Nat) :
    modulesFrom src clean fuel [] = .ok [] := by
  cases fuel <;> rfl

theorem modulesFrom_skip {src clean : List UInt8} {fuel : Nat} {t : Token} {ts : List Token}
    (h : beginsModule t = false) :
    modulesFrom src clean (fuel + 1) (t :: ts) = modulesFrom src clean fuel ts := by
  have hword : ¬ (t.text == "module" || t.text == "macromodule") = true := by
    rw [Bool.not_eq_true]
    exact h
  rw [modulesFrom, if_neg hword]

/-- A module that is read, and the modules behind it. -/
theorem modulesFrom_module {src clean : List UInt8} {fuel : Nat} {t : Token} {ts : List Token}
    {ms : List Module} (hbegins : beginsModule t = true) :
    modulesFrom src clean (fuel + 1) (t :: ts) = .ok ms ↔
      ∃ name b rest m ms', moduleParts clean ts = .ok ((name, b), rest) ∧
        toModule name (Text.trim (Text.ofBytes ((src.drop t.offset).take (b.stop - t.offset))) ++
          "\n") b = .ok m ∧ modulesFrom src clean fuel rest = .ok ms' ∧ ms = m :: ms' := by
  have hword : (t.text == "module" || t.text == "macromodule") = true := hbegins
  rw [modulesFrom, if_pos hword]
  constructor
  · intro h
    obtain ⟨⟨⟨name, b⟩, rest⟩, hparts, h⟩ := bind_ok.1 h
    obtain ⟨m, hm, h⟩ := bind_ok.1 h
    obtain ⟨ms', hms, h⟩ := bind_ok.1 h
    cases h
    exact ⟨name, b, rest, m, ms', mapError_ok.1 hparts, hm, hms, rfl⟩
  · rintro ⟨name, b, rest, m, ms', hparts, hm, hms, rfl⟩
    exact bind_ok.2 ⟨((name, b), rest), mapError_ok.2 hparts, bind_ok.2 ⟨m, hm,
      bind_ok.2 ⟨ms', hms, rfl⟩⟩⟩

theorem toModule_verbatim {name verbatim : String} {b : Body} {m : Module}
    (h : toModule name verbatim b = .ok m) : m.verbatim = verbatim := by
  obtain ⟨m₁, -, h⟩ := bind_ok.1 h
  obtain ⟨m₂, -, h⟩ := bind_ok.1 h
  cases h
  rfl

/-- The piece of a module before the pieces of others. -/
theorem Rereads.cons {q s s' : List UInt8} {name : String} {b : Body} {m : Module}
    {ms : List Module} (h : Rereads ms) (hs : Extract q name b s s')
    (hverbatim : bytes m.verbatim = s ++ [newline])
    (hm : toModule name (Text.trim (Text.ofBytes s) ++ "\n") b = .ok m)
    (hopen : upTo? (ascii '*') (ascii ')') q = none →
      upTo? (ascii '*') (ascii ')') (following ms) = none) : Rereads (m :: ms) := by
  intro before before' start fuel hlength hfuel
  obtain ⟨fuel, rfl⟩ : ∃ k, fuel = k + 1 := ⟨fuel - 1, by omega⟩
  have hjoined : joined (m :: ms) = s ++ newline :: following ms := by
    rw [joined_cons, hverbatim, List.append_assoc, List.singleton_append]
  rw [hjoined, hs.strip _ _ hopen] at hfuel ⊢
  obtain ⟨t, ts, hbegins, hplace, htokens, hparts⟩ :=
    hs.read before' (stripFrom 0 0 true (following ms))
  rw [htokens] at hfuel ⊢
  have hpiece : ((before ++ (s ++ newline :: following ms)).drop t.offset).take
      (before'.length + s.length - t.offset) = s := by
    rw [hplace, hlength, List.drop_left, Nat.add_sub_cancel_left, List.take_left]
  refine (modulesFrom_module hbegins).2 ⟨name, _, _, m, ms, hparts, ?_, ?_, rfl⟩
  · simp only
    rw [hpiece]
    exact hm
  · cases ms with
    | nil =>
      rw [following, stripFrom, tokensFrom_space (by decide)]
      exact modulesFrom_nil _ _ _
    | cons m' ms' =>
      obtain ⟨us, u, hus, -⟩ := moduleParts_ends hparts
      rw [following, stripFrom_newline, tokensFrom_space (by decide),
        tokensFrom_space (by decide)] at hus ⊢
      have hplace' : before'.length + s.length + 1 + 1 =
          (before' ++ (s' ++ [newline, newline])).length := by
        simp only [List.length_append, List.length_cons, List.length_nil, hs.length_eq]
        omega
      have hsplit (l r : List UInt8) (k : List UInt8) :
          l ++ (r ++ newline :: newline :: k) = l ++ (r ++ [newline, newline]) ++ k := by
        simp
      rw [hplace'] at hus ⊢
      rw [hsplit before s, hsplit before' s']
      have hlength' : (before' ++ (s' ++ [newline, newline])).length =
          (before ++ (s ++ [newline, newline])).length := by
        simp only [List.length_append, hlength, hs.length_eq]
      refine h _ _ true fuel hlength' ?_
      rw [hus, List.length_cons, List.length_append, List.length_cons] at hfuel
      omega

theorem following_unclosed {ms : List Module}
    (h : upTo? (ascii '*') (ascii ')') (joined ms) = none) :
    upTo? (ascii '*') (ascii ')') (following ms) = none := by
  cases ms with
  | nil => rfl
  | cons m ms => exact (upTo?_cons_eq_none (by decide)).2 h

/-- No attribute is closed in joined pieces if none was closed where the first one stood. -/
theorem Extract.joined_unclosed {q s s' : List UInt8} {name : String} {b : Body} {m : Module}
    {ms : List Module} (hs : Extract q name b s s') (hverbatim : bytes m.verbatim = s ++ [newline])
    (h : upTo? (ascii '*') (ascii ')') (s ++ q) = none)
    (hopen : upTo? (ascii '*') (ascii ')') q = none →
      upTo? (ascii '*') (ascii ')') (following ms) = none) :
    upTo? (ascii '*') (ascii ')') (joined (m :: ms)) = none := by
  obtain ⟨l, rfl⟩ := hs.ends
  have hend : upTo? (ascii '*') (ascii ')')
      (ascii 'm' :: l ++ ascii 'e' :: newline :: following ms) = none :=
    upTo?_swap_none (q := q) (by decide) (by simpa using h) fun hq =>
      (upTo?_cons_eq_none (by decide)).2 (hopen hq)
  rw [joined_cons, hverbatim]
  simpa using hend

/-- The piece of a module in a text, and the place behind it from which the other modules are
read. -/
theorem exists_piece_and_rest {text name : String} {before before' src : List UInt8} {start : Bool}
    {t : Token} {skipped ts rest : List Token} {b : Body}
    (htext : bytes text = before ++ src) (hlength : before'.length = before.length)
    (htokens : tokensFrom before'.length 0 (stripFrom 0 0 start src) = skipped ++ t :: ts)
    (hbegins : beginsModule t = true) (htidy : ∀ u ∈ skipped ++ t :: ts, u.isTidy = true)
    (h : moduleParts (before' ++ stripFrom 0 0 start src) ts = .ok ((name, b), rest)) :
    ∃ p s s' q e behind, src = p ++ (s ++ q) ∧ Extract q name b s s' ∧
      ((bytes text).drop t.offset).take (b.stop - t.offset) = s ∧
      behind.length = (before ++ (p ++ s)).length ∧
      before' ++ stripFrom 0 0 start src = behind ++ stripFrom 0 0 e q ∧
      tokensFrom behind.length 0 (stripFrom 0 0 e q) = rest := by
  obtain ⟨p, p', s, s', q, e, rfl, hstrip, hp, hplace, hstop, hrest, hs⟩ :=
    exists_extract htokens hbegins htidy h
  have hbehind : (before' ++ (p' ++ s')).length = (before ++ (p ++ s)).length := by
    simp only [List.length_append, hlength, hp, hs.length_eq]
  refine ⟨p, s, s', q, e, before' ++ (p' ++ s'), rfl, hs, ?_, hbehind, ?_, ?_⟩
  · have hplace' : t.offset = (before ++ p).length := by rw [hplace, hlength, List.length_append]
    rw [hstop, Nat.add_sub_cancel_left, htext, hplace', ← List.append_assoc, List.drop_left,
      List.take_left]
  · rw [hstrip]
    simp only [List.append_assoc]
  · have hstop' : (before' ++ (p' ++ s')).length = b.stop := by
      rw [hstop, hplace, List.length_append, List.length_append, hp, hs.length_eq, Nat.add_assoc]
    rw [hrest, hstop']

/-- Whatever is read from some place of a text on is read from the pieces that are kept of it. -/
theorem modulesFrom_kept {text : String} (keep : Module → Bool) {fuel : Nat}
    {before before' src : List UInt8} {start : Bool} {skipped ts : List Token} {ms : List Module}
    (htext : bytes text = before ++ src) (hlength : before'.length = before.length)
    (htokens : tokensFrom before'.length 0 (stripFrom 0 0 start src) = skipped ++ ts)
    (htidy : ∀ t ∈ skipped ++ ts, t.isTidy = true)
    (h : modulesFrom (bytes text) (before' ++ stripFrom 0 0 start src) fuel ts = .ok ms)
    (hfuel : ts.length < fuel) :
    Rereads (ms.filter keep) ∧ (upTo? (ascii '*') (ascii ')') src = none →
      upTo? (ascii '*') (ascii ')') (joined (ms.filter keep)) = none) := by
  induction fuel generalizing before before' src start skipped ts ms with
  | zero => omega
  | succ fuel ih =>
    cases ts with
    | nil =>
      cases h
      exact ⟨.nil, fun _ => rfl⟩
    | cons t ts =>
      cases hbegins : beginsModule t with
      | false =>
        rw [modulesFrom_skip hbegins] at h
        have hskipped : skipped ++ t :: ts = skipped ++ [t] ++ ts := by
          rw [List.append_assoc, List.singleton_append]
        exact ih htext hlength (htokens.trans hskipped) (hskipped ▸ htidy) h
          (by simpa using hfuel)
      | true =>
        obtain ⟨name, b, rest, m, ms, hparts, hm, hms, rfl⟩ := (modulesFrom_module hbegins).1 h
        obtain ⟨p, s, s', q, e, behind, rfl, hs, hpiece, hbehind, hclean, hrest⟩ :=
          exists_piece_and_rest htext hlength htokens hbegins htidy hparts
        rw [hpiece] at hm
        rw [hclean] at hms
        -- the modules behind this one, by induction
        have htext' : bytes text = before ++ (p ++ s) ++ q := by
          rw [htext]
          simp only [List.append_assoc]
        obtain ⟨us, u, hus, -⟩ := moduleParts_ends hparts
        rw [hus] at hfuel htidy
        simp only [List.length_cons, List.length_append] at hfuel
        have hnext : tokensFrom behind.length 0 (stripFrom 0 0 e q) = [] ++ rest := hrest
        obtain ⟨hreads, hclosed⟩ := ih htext' hbehind hnext
          (fun v hv => htidy v (by simp at hv ⊢; tauto)) hms (by omega)
        have hrest' (hsrc : upTo? (ascii '*') (ascii ')') (p ++ (s ++ q)) = none) :
            upTo? (ascii '*') (ascii ')') (s ++ q) = none :=
          upTo?_suffix hsrc (List.suffix_append p _)
        cases hkeep : keep m with
        | false =>
          rw [List.filter_cons_of_neg (by simp [hkeep])]
          exact ⟨hreads, fun hsrc => hclosed (upTo?_suffix (hrest' hsrc) (List.suffix_append s q))⟩
        | true =>
          have hverbatim : bytes m.verbatim = s ++ [newline] := by
            rw [toModule_verbatim hm, hs.verbatim (htext.trans (List.append_assoc _ _ _).symm)]
          rw [List.filter_cons_of_pos hkeep]
          exact ⟨hreads.cons hs hverbatim hm fun hq => following_unclosed (hclosed hq),
            fun hsrc => hs.joined_unclosed hverbatim (hrest' hsrc) fun hq =>
              following_unclosed (hclosed hq)⟩

/-- Whether every string of a source, comments apart, is closed on its line and no escaped
identifier contains a quote. -/
def isTidy (text : String) : Bool := (tokens (strip (bytes text))).all Token.isTidy

/-- The modules of a tidy source that are kept are read from their joined pieces. -/
theorem parse_kept {text : String} {ms : List Module} (h : parse text = .ok ms)
    (htidy : isTidy text = true) (keep : Module → Bool) :
    parse (String.intercalate "\n" ((ms.filter keep).map Module.verbatim)) =
      .ok (ms.filter keep) := by
  have htext : bytes text = [] ++ bytes text := rfl
  have hlength : ([] : List UInt8).length = ([] : List UInt8).length := rfl
  have htokens : tokensFrom ([] : List UInt8).length 0 (stripFrom 0 0 true (bytes text)) =
      [] ++ tokens (strip (bytes text)) := rfl
  have hreads := (modulesFrom_kept keep htext hlength htokens (List.all_eq_true.1 htidy) h
    (Nat.lt_succ_self _)).1
  exact hreads [] [] true _ rfl (Nat.lt_succ_self _)

end Source

theorem filter_of_not_isReplaced {s : SourceFile} {generated : List String}
    (h : ¬ Writing.isReplaced generated s = true) :
    s.modules.filter (fun m => !generated.contains m.name) = s.modules := by
  refine List.filter_eq_self.2 fun m hm => ?_
  rw [Bool.not_eq_true, Writing.isReplaced, List.any_eq_false] at h
  simpa using h m hm

/-- A tidy source that is kept without the modules that are generated has all its other modules, in
order, with the same names, ports, parameters and texts. -/
theorem parse_keptText {s : SourceFile} (hparse : Source.parse s.text = .ok s.modules)
    (htidy : Source.isTidy s.text = true) (generated : List String) :
    Source.parse (Writing.keptText generated s) =
      .ok (s.modules.filter fun m => !generated.contains m.name) := by
  unfold Writing.keptText
  split
  · exact Source.parse_kept hparse htidy _
  · rename_i hkeep
    rw [filter_of_not_isReplaced hkeep, hparse]

/-- A file with the modules that its text defines. -/
def SourceFile.ofText (path text : String) : SourceFile :=
  ⟨path, text, (Source.parse text).toOption.getD []⟩

theorem SourceFile.parse_ofText {text : String}
    (h : (Source.parse text).toOption.isSome = true) (path : String) :
    Source.parse (ofText path text).text = .ok (ofText path text).modules := by
  unfold ofText
  simp only
  cases hp : Source.parse text with
  | error e => simp [hp, Except.toOption] at h
  | ok ms => rfl

/-- Three modules among comments, attributes, strings and a directive; in the last one an attribute
seems to begin that is never closed. -/
def threeModules : String :=
  "`define N 3\nmodule a(input x); // module b(\n (* k *) wire w; endmodule\n" ++
    "module b(y); $t(\"endmodule // (*\"); input y; endmodule\n" ++
    "module c(output [`N:0] z); p(*x); endmodule"

/-- Without its second module, the source has the first one and the third one. -/
theorem parse_keptText_marks :
    Source.parse (SourceFile.ofText "a.v" threeModules).text =
      .ok (SourceFile.ofText "a.v" threeModules).modules ∧
    Source.isTidy (SourceFile.ofText "a.v" threeModules).text = true ∧
    Source.parse (Writing.keptText ["b"] (SourceFile.ofText "a.v" threeModules)) =
      .ok ((SourceFile.ofText "a.v" threeModules).modules.filter fun m =>
        !(["b"].contains m.name)) ∧
    ((SourceFile.ofText "a.v" threeModules).modules.filter fun m =>
        !(["b"].contains m.name)).map Module.verbatim =
      ["module a(input x); // module b(\n (* k *) wire w; endmodule\n",
        "module c(output [`N:0] z); p(*x); endmodule\n"] := by
  have hread : (Source.parse threeModules).toOption.isSome = true := by decide +kernel
  have hparse := SourceFile.parse_ofText hread "a.v"
  have htidy : Source.isTidy (SourceFile.ofText "a.v" threeModules).text = true := by
    decide +kernel
  exact ⟨hparse, htidy, parse_keptText hparse htidy ["b"], by decide +kernel⟩

end TaskLoom
