import TaskLoom.Proofs.Hdl.Positions
import TaskLoom.Proofs.Hdl.Stable

/-!
# Texts cut from a source

A source without comments is still a text (`exists_stripped`), so the tokens between two marks of it
are those of a text, and they span that text without the blanks at its ends (`Cut.exists_text`).
Its brackets and separators, which decide where a bound or a value ends, are among what is left
(`endsIn_trim`), so that it is read back as it was read (`Cut.isValue`).
-/

namespace TaskLoom.Source

open Text (bytes)

/-- The bytes of some characters. -/
def encoded (cs : List Char) : List UInt8 := cs.flatMap String.utf8EncodeChar

theorem encoded_cons (c : Char) (cs : List Char) :
    encoded (c :: cs) = String.utf8EncodeChar c ++ encoded cs := List.flatMap_cons

theorem encoded_append (cs ds : List Char) : encoded (cs ++ ds) = encoded cs ++ encoded ds :=
  List.flatMap_append

theorem encoded_singleton (c : Char) : encoded [c] = String.utf8EncodeChar c :=
  List.flatMap_singleton _ c

/-- A character ends behind that many bytes. -/
def Boundary (cs : List Char) (n : Nat) : Prop :=
  ∃ ds es, cs = ds ++ es ∧ (encoded ds).length = n

theorem boundary_length (cs : List Char) : Boundary cs (encoded cs).length :=
  ⟨cs, [], (List.append_nil cs).symm, rfl⟩

/-- A byte below 128 is a character of its own. -/
theorem boundary_ascii {cs : List Char} {p q : List UInt8} {b : UInt8} (hb : b.toNat < 128)
    (h : encoded cs = p ++ b :: q) : Boundary cs p.length ∧ Boundary cs (p.length + 1) := by
  obtain ⟨ds, c, es, rfl, rfl, hc, -⟩ := Text.exists_chars hb h
  refine ⟨⟨ds, c :: es, rfl, rfl⟩, ds ++ [c], es, by simp, ?_⟩
  rw [encoded_append, encoded_singleton, hc, List.length_append, List.length_singleton]
  rfl

theorem upTo?_split {x y : UInt8} {l : List UInt8} {n : Nat} (h : upTo? x y l = some n) :
    ∃ p q, l = p ++ y :: q ∧ n = p.length + 1 := by
  induction l generalizing n with
  | nil => cases h
  | cons b l ih =>
    cases l with
    | nil => cases h
    | cons c l =>
      rw [upTo?] at h
      split at h
      · rename_i hbc
        simp only [Bool.and_eq_true, beq_iff_eq] at hbc
        exact ⟨[b], l, by rw [hbc.2]; rfl, (Option.some.inj h).symm⟩
      · obtain ⟨k, hk, rfl⟩ := Option.map_eq_some_iff.1 h
        obtain ⟨p, q, hl, rfl⟩ := ih hk
        exact ⟨b :: p, q, by rw [hl]; rfl, rfl⟩

theorem stringRest_split (l : List UInt8) : stringRest l = l.length ∨
    ∃ p b q, l = p ++ b :: q ∧ b.toNat < 128 ∧ stringRest l = p.length + 1 := by
  induction l using stringRest.induct with
  | case1 => exact .inl rfl
  | case2 b => exact .inl rfl
  | case3 b c bs hend =>
    refine .inr ⟨[], b, c :: bs, rfl, ?_, by rw [stringRest, if_pos hend]; rfl⟩
    simp only [Bool.or_eq_true, beq_iff_eq] at hend
    rcases hend with rfl | rfl <;> decide
  | case4 b c bs hend hslash ih =>
    rw [stringRest, if_neg hend, if_pos hslash]
    rcases ih with hall | ⟨p, b', q, rfl, hb, hn⟩
    · exact .inl (by simp only [hall, List.length_cons]; omega)
    · exact .inr ⟨b :: c :: p, b', q, rfl, hb, by simp only [hn, List.length_cons]; omega⟩
  | case5 b c bs hend hslash ih =>
    rw [stringRest, if_neg hend, if_neg hslash]
    rcases ih with hall | ⟨p, b', q, hsplit, hb, hn⟩
    · exact .inl (by simp only [hall, List.length_cons]; omega)
    · exact .inr ⟨b :: p, b', q, by rw [hsplit]; rfl, hb, by simp only [hn, List.length_cons]; omega⟩

section
variable {cs : List Char} {start : Bool} {b : UInt8} {n : Nat}

theorem boundary_copy (cs : List Char) : Boundary cs (stringRest (encoded cs)) := by
  rcases stringRest_split (encoded cs) with hall | ⟨p, b, q, hsplit, hb, hn⟩
  · rw [hall]
    exact boundary_length cs
  · rw [hn]
    exact (boundary_ascii hb hsplit).2

theorem boundary_restOfLine (cs : List Char) : Boundary cs (restOfLine (encoded cs)) := by
  have hsplit := List.takeWhile_append_dropWhile (p := (· != newline)) (l := encoded cs)
  rw [restOfLine]
  cases hd : (encoded cs).dropWhile (· != newline) with
  | nil =>
    rw [hd, List.append_nil] at hsplit
    rw [hsplit]
    exact boundary_length cs
  | cons y q =>
    have hy := List.head?_dropWhile_not (· != newline) (encoded cs)
    rw [hd] at hy hsplit
    obtain rfl : y = newline := by simpa using hy
    exact (boundary_ascii (by decide) hsplit.symm).1

/-- What is erased ends behind a whole character. -/
theorem boundary_erase (h : treatment start b (encoded cs) = .erase n) : Boundary cs n := by
  have hline (hn : Treatment.erase (restOfLine (encoded cs)) = .erase n) : Boundary cs n :=
    Treatment.erase.inj hn ▸ boundary_restOfLine cs
  have hpair {y : UInt8} {k : Nat} (hy : y.toNat < 128)
      (hhead : (encoded cs).head? = some (ascii '*'))
      (hk : upTo? (ascii '*') y (encoded cs).tail = some k)
      (hn : Treatment.erase (1 + k) = .erase n) : Boundary cs n := by
    obtain ⟨p, q, hsplit, rfl⟩ := upTo?_split hk
    have hall : encoded cs = (ascii '*' :: p) ++ y :: q := by
      cases he : encoded cs with
      | nil => simp [he] at hhead
      | cons c r =>
        rw [he] at hhead hsplit
        rw [← Option.some.inj hhead, List.cons_append, ← hsplit, List.tail_cons]
    have hbound := (boundary_ascii hy hall).2
    rwa [List.length_cons, Nat.add_comm, Treatment.erase.inj hn] at hbound
  unfold treatment at h
  split_ifs at h with h₁ h₂ h₃ h₄ h₅
  · exact hline h
  · rw [Bool.and_eq_true, beq_iff_eq, beq_iff_eq] at h₃
    split at h
    · rename_i k hk
      exact hpair (by decide) h₃.2 hk h
    · exact Treatment.erase.inj h ▸ boundary_length cs
  · rw [Bool.and_eq_true, Bool.and_eq_true, beq_iff_eq, beq_iff_eq] at h₄
    split at h
    · rename_i k hk
      exact hpair (by decide) h₄.1.2 hk h
    · cases h
  · exact hline h

theorem exists_blanked (l : List UInt8) : ∃ ds, l.map blanked = encoded ds := by
  induction l with
  | nil => exact ⟨[], rfl⟩
  | cons b l ih =>
    obtain ⟨ds, hds⟩ := ih
    refine ⟨(if b == newline then '\n' else ' ') :: ds, ?_⟩
    rw [List.map_cons, hds, encoded_cons, blanked]
    split
    · rename_i hb
      rw [eq_of_beq hb]
      rfl
    · rfl

/-- A text that is blanked out is a text. -/
theorem exists_stripped (cs : List Char) (start : Bool) :
    ∃ ds, stripFrom 0 0 start (encoded cs) = encoded ds := by
  induction hn : cs.length using Nat.strong_induction_on generalizing cs start with
  | _ n ih =>
    subst hn
    cases cs with
    | nil => exact ⟨[], rfl⟩
    | cons c cs =>
      -- some characters that come out as a text, and the rest by induction
      have hrest {l : List UInt8} {d e : List Char} (hl : ∃ ds, l = encoded ds)
          (hsplit : cs = d ++ e) (start : Bool) :
          ∃ ds, l ++ stripFrom 0 0 start (encoded e) = encoded ds := by
        obtain ⟨ds, rfl⟩ := hl
        have hlt : e.length < (c :: cs).length := by
          rw [hsplit, List.length_cons, List.length_append]
          omega
        obtain ⟨es, hes⟩ := ih _ hlt e start rfl
        exact ⟨ds ++ es, by rw [hes, encoded_append]⟩
      by_cases hc : c.toNat < 128
      · have hbyte : encoded (c :: cs) = c.toNat.toUInt8 :: encoded cs := by
          rw [encoded, List.flatMap_cons, Text.encode_ascii hc]
          rfl
        have hself : String.utf8EncodeChar c = [c.toNat.toUInt8] := Text.encode_ascii hc
        rw [encoded_cons, hself, List.singleton_append, stripFrom]
        split
        · rename_i k herase
          obtain ⟨ds, es, hsplit, rfl⟩ := boundary_erase herase
          have hes : encoded cs = encoded ds ++ encoded es := by rw [hsplit, encoded_append]
          rw [hes, stripFrom_erased, ← List.cons_append, ← List.map_cons]
          exact hrest (exists_blanked _) hsplit start
        · rename_i k hcopy
          obtain rfl : k = stringRest (encoded cs) := by
            rw [treatment_copy hcopy, treatment_quote] at hcopy
            exact (Treatment.copy.inj hcopy).symm
          obtain ⟨ds, es, hsplit, hlength⟩ := boundary_copy cs
          have hes : encoded cs = encoded ds ++ encoded es := by rw [hsplit, encoded_append]
          obtain ⟨start', hcopied⟩ := stripFrom_copied (encoded ds) (encoded es) false
          rw [← hlength, hes, hcopied, ← List.cons_append]
          exact hrest ⟨c :: ds, by rw [encoded_cons, hself]; rfl⟩ hsplit start'
        · exact hrest (l := [c.toNat.toUInt8]) (d := [])
            ⟨[c], by rw [encoded_singleton, hself]⟩ rfl _
      · -- the bytes of any other character are ordinary text
        have hquiet : ∀ b ∈ String.utf8EncodeChar c, isQuiet b = true := by
          intro b hb
          have hbig : ¬ b.toNat < 128 := fun hlt => hc ((Text.encode_of_ascii hb hlt).2 ▸ hlt)
          simp only [isQuiet, Bool.and_eq_true, bne_iff_ne]
          refine ⟨⟨⟨?_, ?_⟩, ?_⟩, ?_⟩
          all_goals
            rintro rfl
            exact hbig (by decide)
        have hstrip := (scanned_quiet hquiet (encoded cs) start).strip
        rw [encoded_cons, hstrip]
        exact hrest (d := []) ⟨[c], by rw [encoded_singleton]⟩ rfl _

end

theorem exists_clean (text : String) : ∃ ds, strip (bytes text) = encoded ds := by
  obtain ⟨ds, hds⟩ := exists_stripped text.toList true
  refine ⟨ds, ?_⟩
  rw [← hds, strip, Text.bytes_eq_flatMap]
  rfl

/-! ### The tokens before another token -/

theorem quotedRest_prefix {l r p : List UInt8} (hp : p <+: r)
    (h : quotedRest (l ++ r) = l.length) : quotedRest (l ++ p) = l.length := by
  induction l using quotedRest.induct with
  | case1 =>
    cases p with
    | nil => rfl
    | cons y p =>
      -- a string takes at least one byte
      obtain ⟨q, rfl⟩ := hp
      exfalso
      cases hq : p ++ q with
      | nil => simp [hq, quotedRest] at h
      | cons z q' =>
        simp only [List.nil_append, List.cons_append, hq, quotedRest] at h
        split_ifs at h
        all_goals simp only [List.length_nil] at h
        all_goals omega
  | case2 b =>
    cases p with
    | nil => rfl
    | cons y p =>
      obtain ⟨q, rfl⟩ := hp
      simp only [List.cons_append, List.nil_append, quotedRest, List.length_singleton] at h ⊢
      split_ifs at h ⊢ with hquote hslash
      · rfl
      · omega
      · rw [← List.cons_append] at h
        exfalso
        cases hq : p ++ q with
        | nil => simp [hq, quotedRest] at h
        | cons z q' =>
          simp only [List.cons_append, hq, quotedRest] at h
          split_ifs at h
          all_goals omega
  | case3 b c bs hquote =>
    rw [List.cons_append, List.cons_append, quotedRest, if_pos hquote] at h
    simp only [List.length_cons] at h
    omega
  | case4 b c bs hquote hslash ih =>
    rw [List.cons_append, List.cons_append, quotedRest, if_neg hquote, if_pos hslash,
      List.length_cons, List.length_cons] at h ⊢
    rw [ih (by omega)]
    omega
  | case5 b c bs hquote hslash ih =>
    rw [List.cons_append, List.cons_append, quotedRest, if_neg hquote, if_neg hslash,
      List.length_cons] at h ⊢
    rw [← List.cons_append, ih (by rw [List.cons_append]; omega)]
    omega

/-- A token ends where it ends if less of the source stands behind it. -/
theorem tokenRest_prefix {b : UInt8} {l r p : List UInt8} (hp : p <+: r)
    (h : tokenRest b (l ++ r) = l.length) : tokenRest b (l ++ p) = l.length := by
  have hstop (f : UInt8 → Bool) (hl : ((l ++ r).takeWhile f).length = l.length) :
      ((l ++ p).takeWhile f).length = l.length := by
    have hwhole : (l ++ r).takeWhile f = l :=
      (List.prefix_of_prefix_length_le (List.takeWhile_prefix f) (List.prefix_append l r)
        hl.le).eq_of_length hl
    have hall : ∀ x ∈ l, f x = true := fun x hx => List.mem_takeWhile_imp (hwhole.symm ▸ hx)
    rw [List.takeWhile_append_of_pos hall] at hwhole ⊢
    have hnone : r.takeWhile f = [] := by simpa using hwhole
    obtain ⟨q, rfl⟩ := hp
    cases p with
    | nil => simp
    | cons y p =>
      rw [List.cons_append, List.takeWhile_cons] at hnone
      split at hnone
      · cases hnone
      · rename_i hy
        rw [List.takeWhile_cons_of_neg hy, List.append_nil]
  by_cases hquote : b = ascii '"'
  · subst hquote
    have hword : (ascii '"' == ascii '"') = true := by decide
    rw [tokenRest, if_pos hword] at h ⊢
    exact quotedRest_prefix hp h
  · rw [tokenRest_unquoted hquote] at h ⊢
    split_ifs at h ⊢
    · exact hstop _ h
    · exact hstop _ h
    · exact h

/-- The source up to some token has the tokens before it. -/
theorem exists_before {off : Nat} {c : List UInt8} {ts us : List Token} {t : Token}
    (h : tokensFrom off 0 c = ts ++ t :: us) :
    ∃ p r, c = p ++ r ∧ tokensFrom off 0 p = ts ∧ Begins (off + p.length) r t us := by
  induction hn : c.length using Nat.strong_induction_on generalizing off c ts with
  | _ n ih =>
    subst hn
    cases c with
    | nil => simp [tokensFrom] at h
    | cons b c =>
      cases hb : isSpace b with
      | true =>
        rw [tokensFrom_space hb] at h
        obtain ⟨p, r, rfl, hp, hbegins⟩ := ih c.length (Nat.lt_succ_self _) h rfl
        refine ⟨b :: p, r, rfl, by rw [tokensFrom_space hb, hp], ?_⟩
        rwa [List.length_cons, Nat.add_comm p.length, ← Nat.add_assoc]
      | false =>
        cases ts with
        | nil =>
          rw [tokensFrom, if_neg (by simp [hb])] at h
          obtain ⟨ht, hus⟩ := List.cons.inj h
          exact ⟨[], b :: c, rfl, rfl, b, c, rfl, hb, ht.symm, hus.symm⟩
        | cons u ts =>
          have hlength : (c.take (tokenRest b c)).length = tokenRest b c := by
            rw [List.length_take, Nat.min_eq_left (tokenRest_le b c)]
          have hlt : (c.drop (tokenRest b c)).length < (b :: c).length := by
            rw [List.length_drop, List.length_cons]
            omega
          rw [tokensFrom_cons hb] at h
          obtain ⟨rfl, htail⟩ := List.cons.inj h
          obtain ⟨p, r, hsplit, hp, hbegins⟩ := ih _ hlt htail rfl
          have hc : c = c.take (tokenRest b c) ++ (p ++ r) := by
            rw [← hsplit, List.take_append_drop]
          have hend := tokenRest_prefix (b := b) (List.prefix_append p r)
            (by rw [← hc, hlength])
          refine ⟨b :: (c.take (tokenRest b c) ++ p), r, ?_, ?_, ?_⟩
          · rw [List.cons_append, List.append_assoc, ← hc]
          · rw [tokensFrom_token hb hend, List.length_cons, hlength, Nat.add_comm _ 1,
              ← Nat.add_assoc, hp]
          · rw [List.length_cons, List.length_append, hlength]
            have hoff : off + 1 + tokenRest b c + p.length =
                off + (tokenRest b c + p.length + 1) := by omega
            rwa [← hoff]

theorem blank_of_tokensFrom {off : Nat} {l : List UInt8} (h : tokensFrom off 0 l = []) :
    ∀ b ∈ l, isSpace b = true := by
  intro b hb
  obtain ⟨i, hi⟩ := List.mem_iff_getElem?.1 hb
  have hout : ∀ t ∈ tokensFrom off 0 l, ¬ (t.offset ≤ off + i ∧ off + i < t.stop) := by simp [h]
  exact blank_outside (Nat.zero_le i) hi hout

/-! ### Tokens between two marks -/

/-- A token that is a character of its own. -/
def Token.IsMark (t : Token) : Prop := ∃ b, t.bytes = [b] ∧ b.toNat < 128

/-- Some tokens of a source stand between two marks. -/
def Cut (clean : List UInt8) (ts : List Token) : Prop :=
  ∃ before a b after, tokens clean = before ++ a :: (ts ++ b :: after) ∧ a.IsMark ∧ b.IsMark

section
variable {cs : List Char} {l r : List UInt8}

theorem encoded_split_right (hr : ∀ b ∈ r, b.toNat < 128) (h : encoded cs = l ++ r) :
    ∃ ds es, cs = ds ++ es ∧ encoded ds = l ∧ encoded es = r := by
  cases r with
  | nil => exact ⟨cs, [], (List.append_nil cs).symm, by rw [h, List.append_nil], rfl⟩
  | cons b r =>
    obtain ⟨ds, c, es, hcs, hds, hc, hes⟩ := Text.exists_chars (hr b List.mem_cons_self) h
    refine ⟨ds, c :: es, hcs, hds, ?_⟩
    rw [encoded_cons, hc, encoded, hes]
    rfl

theorem encoded_split_left (hl : ∀ b ∈ l, b.toNat < 128) (h : encoded cs = l ++ r) :
    ∃ ds es, cs = ds ++ es ∧ encoded ds = l ∧ encoded es = r := by
  rcases List.eq_nil_or_concat l with rfl | ⟨k, b, rfl⟩
  · exact ⟨[], cs, rfl, rfl, h⟩
  · rw [List.concat_eq_append] at hl h ⊢
    rw [List.append_assoc, List.singleton_append] at h
    obtain ⟨ds, c, es, rfl, hds, hc, hes⟩ := Text.exists_chars (hl b (by simp)) h
    refine ⟨ds ++ [c], es, by simp, ?_, hes⟩
    rw [encoded_append, encoded_singleton, hc, encoded, hds]

theorem ascii_of_isSpace {b : UInt8} (h : isSpace b = true) : b.toNat < 128 := by
  simp only [isSpace, Bool.or_eq_true, beq_iff_eq] at h
  rcases h with ((rfl | rfl) | rfl) | rfl <;> decide

/-- Characters of blank bytes are blank. -/
theorem blank_of_encoded (h : ∀ b ∈ encoded cs, isSpace b = true) :
    ∀ c ∈ cs, Text.isBlank c = true := by
  intro c hc
  obtain ⟨b, hb⟩ := List.exists_mem_of_ne_nil _ (Text.encode_ne_nil c)
  have hspace := h b (List.mem_flatMap.2 ⟨c, hc, hb⟩)
  have hcode := (Text.encode_of_ascii hb (ascii_of_isSpace hspace)).2
  simp only [isSpace, Bool.or_eq_true, beq_iff_eq] at hspace
  rcases hspace with ((rfl | rfl) | rfl) | rfl <;> simp [Text.isBlank, hcode]

end

/-- A text is what its tokens span, between the blanks in front of the first one and those behind
the last one. -/
theorem exists_span {off : Nat} {l : List UInt8} {ts : List Token} (h : tokensFrom off 0 l = ts)
    (hne : ts ≠ []) :
    ∃ front k back u v, l = front ++ (k ++ back) ∧ ts.head? = some u ∧ ts.getLast? = some v ∧
      u.offset = off + front.length ∧ v.offset + v.bytes.length = u.offset + k.length ∧
      (∀ b ∈ front, isSpace b = true) ∧ ∀ b ∈ back, isSpace b = true := by
  obtain ⟨u, us, hfirst⟩ := List.exists_cons_of_ne_nil hne
  obtain ⟨vs, v, hlast⟩ := (List.eq_nil_or_concat ts).resolve_left hne
  rw [List.concat_eq_append] at hlast
  have hhead : ts.head? = some u := by rw [hfirst]; rfl
  have hend : ts.getLast? = some v := by rw [hlast, List.getLast?_concat]
  rw [← List.nil_append (u :: us)] at hfirst
  obtain ⟨front, r, rfl, hleft, hbegins⟩ := exists_before (h.trans hfirst)
  obtain ⟨q, r', hq, -, hbegins'⟩ := exists_before (h.trans hlast)
  obtain ⟨hu, -⟩ := hbegins.split
  obtain ⟨hv, back, rfl, hright⟩ := hbegins'.split
  have hback := blank_of_tokensFrom hright.symm
  obtain ⟨k, hk, rfl⟩ : ∃ k, q ++ v.bytes = front ++ k ∧ r = k ++ back := by
    rw [← List.append_assoc] at hq
    rcases List.append_eq_append_iff.1 hq with ⟨k, hk, hr⟩ | ⟨k, -, hz⟩
    · exact ⟨k, hk, hr⟩
    · -- the first token would stand among the blanks behind the last one
      obtain ⟨b, d, hr, hspace, -⟩ := hbegins
      have hblank := hback b (by rw [hz, hr]; simp)
      rw [hspace] at hblank
      cases hblank
  refine ⟨front, k, back, u, v, rfl, hhead, hend, hu, ?_, blank_of_tokensFrom hleft, hback⟩
  have hlength := congrArg List.length hk
  simp only [List.length_append] at hlength
  omega

/-- What the tokens of a text span in a source is the text without the blanks at its ends. -/
theorem spanText_encoded {ds fs : List Char} {before behind : List UInt8} {ts : List Token}
    (hds : encoded ds = before ++ (encoded fs ++ behind))
    (h : tokensFrom before.length 0 (encoded fs) = ts) (hne : ts ≠ []) :
    spanText (encoded ds) ts = Text.trim (String.ofList fs) := by
  obtain ⟨front, k, back, u, v, hfs, hhead, hend, hu, hv, hfront, hback⟩ := exists_span h hne
  obtain ⟨as, ks, rfl, has, hks⟩ :=
    encoded_split_left (fun b hb => ascii_of_isSpace (hfront b hb)) hfs
  obtain ⟨ks, zs, rfl, hks, hzs⟩ :=
    encoded_split_right (fun b hb => ascii_of_isSpace (hback b hb)) hks
  have hslice : ((encoded ds).drop u.offset).take k.length = k := by
    have hwhole : encoded ds = before ++ front ++ (k ++ (back ++ behind)) := by
      rw [hds, hfs]
      simp only [List.append_assoc]
    have hoffset : u.offset = (before ++ front).length := by rw [hu, List.length_append]
    rw [hwhole, hoffset, List.drop_left, List.take_left]
  have hread : Text.ofBytes k = String.ofList ks := by
    rw [← hks, encoded, ← Text.bytes_ofList, Text.ofBytes_bytes]
  have hplace : v.offset + v.bytes.length - u.offset = k.length := by omega
  have hspan : spanText (encoded ds) ts = Text.trim (String.ofList ks) := by
    rw [spanText, hhead, hend]
    simp only [hplace, hslice, hread]
  rw [hspan]
  exact (Text.trim_blanks (blank_of_encoded (has ▸ hfront)) (blank_of_encoded (hzs ▸ hback))).symm

/-- The tokens between two marks are those of a text, and what they span is that text without the
blanks at its ends. -/
theorem Cut.exists_text {text : String} {ts : List Token} (h : Cut (strip (bytes text)) ts) :
    ∃ (s : String) (off : Nat), tokensFrom off 0 (bytes s) = ts ∧
      spanText (strip (bytes text)) ts = Text.trim s := by
  obtain ⟨before, a, b, after, htokens, ⟨x, ha, hx⟩, y, hb, hy⟩ := h
  obtain ⟨ds, hclean⟩ := exists_clean text
  rw [hclean] at htokens ⊢
  -- the source up to the first mark, the text between the marks, and the rest
  obtain ⟨p, r, hsplit, -, hbegins⟩ := exists_before htokens
  obtain ⟨-, c, rfl, hts⟩ := hbegins.split
  obtain ⟨m, r', rfl, hm, hbegins'⟩ := exists_before hts.symm
  obtain ⟨-, c', rfl, -⟩ := hbegins'.split
  rw [ha, Nat.zero_add, ← List.length_append] at hm
  rw [ha, hb] at hsplit
  obtain ⟨-, -, es, -, -, -, hes⟩ := Text.exists_chars hx hsplit
  obtain ⟨fs, -, -, -, hfs, -, -⟩ := Text.exists_chars hy hes
  obtain rfl : encoded fs = m := hfs
  by_cases hne : ts = []
  · exact ⟨"", 0, hne.symm, by rw [hne]; rfl⟩
  · rw [← List.append_assoc] at hsplit
    refine ⟨String.ofList fs, (p ++ [x]).length, ?_, spanText_encoded hsplit hm hne⟩
    rw [Text.bytes_ofList]
    exact hm

/-- The brackets and separators. -/
def endWords : List String := ["(", "[", "\x7b", ")", "]", "\x7d", ",", ";", ":"]

/-- The brackets and separators among some words. -/
def endsIn (ws : List String) : List String := ws.filter (endWords.contains ·)

theorem other_word {w : String} (h : endWords.contains w = false) : opens w = false ∧
    closes w = false ∧ (w == "," || w == ";") = false ∧ (w == "]") = false ∧ (w == ":") = false := by
  have hne (v : String) (hv : v ∈ endWords) : (w == v) = false := by
    refine beq_eq_false_iff_ne.2 ?_
    rintro rfl
    rw [List.contains_iff_mem.2 hv] at h
    cases h
  refine ⟨?_, ?_, ?_, hne _ (by decide), hne _ (by decide)⟩
  · simp only [opens, hne "(" (by decide), hne "[" (by decide), hne "\x7b" (by decide), Bool.or_self]
  · simp only [closes, hne ")" (by decide), hne "]" (by decide), hne "\x7d" (by decide), Bool.or_self]
  · simp only [hne "," (by decide), hne ";" (by decide), Bool.or_self]

/-- Whether a value is closed depends on its brackets and separators only. -/
theorem closedValue_endsIn (d : Nat) (ws : List String) :
    closedValue d (endsIn ws) = closedValue d ws := by
  induction ws generalizing d with
  | nil => rfl
  | cons w ws ih =>
    cases hw : endWords.contains w with
    | true =>
      have hkeep : endsIn (w :: ws) = w :: endsIn ws := List.filter_cons_of_pos hw
      rw [hkeep, closedValue, closedValue, ih, ih, ih]
    | false =>
      have hdrop : endsIn (w :: ws) = endsIn ws :=
        List.filter_cons_of_neg (by rw [hw]; exact Bool.false_ne_true)
      obtain ⟨ho, hc, hsep, -, -⟩ := other_word hw
      rw [hdrop, ih, closedValue, ho, hc, hsep]
      simp

/-- Whether a bound is closed depends on its brackets and separators only. -/
theorem closedBound_endsIn (upper : Bool) (d : Int) (ws : List String) :
    closedBound upper d (endsIn ws) = closedBound upper d ws := by
  induction ws generalizing d with
  | nil => rfl
  | cons w ws ih =>
    cases hw : endWords.contains w with
    | true =>
      have hkeep : endsIn (w :: ws) = w :: endsIn ws := List.filter_cons_of_pos hw
      rw [hkeep, closedBound, closedBound, ih]
    | false =>
      have hdrop : endsIn (w :: ws) = endsIn ws :=
        List.filter_cons_of_neg (by rw [hw]; exact Bool.false_ne_true)
      obtain ⟨ho, hc, -, hb, hcol⟩ := other_word hw
      rw [hdrop, ih, closedBound, depthBehind, ho, hc, hb, hcol]
      simp

/-- The bytes of blanks.  Some of them are tokens. -/
def isLoose (b : UInt8) : Bool := 128 ≤ b.toNat || (9 ≤ b.toNat && b.toNat ≤ 13) || b.toNat == 32

theorem endWord_bytes {l : List UInt8} (h : Text.ofBytes l ∈ endWords) :
    ∃ b, l = [b] ∧ b.toNat < 128 ∧ isLoose b = false := by
  have hall : endWords.all (fun w => Text.isAscii w && (bytes w).length == 1 &&
      (bytes w).all fun b => decide (b.toNat < 128) && !isLoose b) = true := by
    decide
  have hword := List.all_eq_true.1 hall _ h
  rw [Bool.and_eq_true, Bool.and_eq_true, beq_iff_eq] at hword
  obtain ⟨⟨hascii, hone⟩, hbytes⟩ := hword
  rw [← Text.bytes_of_ofBytes rfl hascii] at hone hbytes
  obtain ⟨b, rfl⟩ := List.length_eq_one_iff.1 hone
  exact ⟨b, rfl, by simpa using hbytes⟩

theorem loose_of_blank {c : Char} (h : Text.isBlank c = true) :
    ∀ b ∈ String.utf8EncodeChar c, isLoose b = true := by
  intro b hb
  by_cases hlt : b.toNat < 128
  · have hcode := (Text.encode_of_ascii hb hlt).2
    simp only [Text.isBlank, hcode, Bool.or_eq_true, Bool.and_eq_true, beq_iff_eq,
      decide_eq_true_eq] at h
    simp only [isLoose, Bool.or_eq_true, Bool.and_eq_true, beq_iff_eq, decide_eq_true_eq]
    omega
  · simp only [isLoose, Bool.or_eq_true, decide_eq_true_eq]
    omega

/-- A byte of a blank neither begins nor continues a token with another byte. -/
theorem tokenRest_loose {b : UInt8} (h : isLoose b = true) :
    continuesWord b = false ∧ ∀ l, tokenRest b l = 0 := by
  have hnot {c : UInt8} (hc : isLoose c = false) : b ≠ c := by
    rintro rfl
    rw [h] at hc
    cases hc
  have hword : isWord b = false := by
    simp only [isLoose, Bool.or_eq_true, Bool.and_eq_true, beq_iff_eq, decide_eq_true_eq] at h
    simp only [isWord, Bool.or_eq_false_iff, Bool.and_eq_false_iff, decide_eq_false_iff_not,
      UInt8.le_iff_toNat_le, beq_eq_false_iff_ne]
    refine ⟨⟨⟨hnot (by decide), ?_⟩, ?_⟩, ?_⟩
    all_goals simp only [UInt8.reduceToNat]
    all_goals omega
  have hne (c : UInt8) (hc : isLoose c = false) : (b == c) = false := beq_eq_false_iff_ne.2 (hnot hc)
  refine ⟨?_, fun l => ?_⟩
  · simp only [continuesWord, hword, hne (ascii '$') (by decide), hne (ascii '\'') (by decide),
      hne (ascii '?') (by decide), Bool.or_self]
  · rw [tokenRest]
    simp only [startsWord, hword, hne (ascii '"') (by decide), hne (ascii '\\') (by decide),
      hne (ascii '\'') (by decide), hne (ascii '$') (by decide), hne backtick (by decide),
      Bool.or_self, Bool.false_eq_true, if_false]

/-- Blanks have no brackets and separators. -/
theorem tokensFrom_loose {l : List UInt8} (h : ∀ b ∈ l, isLoose b = true) (off : Nat)
    (rest : List UInt8) : ∃ ts, tokensFrom off 0 (l ++ rest) =
      ts ++ tokensFrom (off + l.length) 0 rest ∧ endsIn (ts.map Token.text) = [] := by
  induction l generalizing off with
  | nil => exact ⟨[], rfl, rfl⟩
  | cons b l ih =>
    have hb := h b List.mem_cons_self
    obtain ⟨ts, hts, hnone⟩ := ih (fun x hx => h x (List.mem_cons_of_mem _ hx)) (off + 1)
    have hlength : off + 1 + l.length = off + (b :: l).length := by
      rw [List.length_cons]
      omega
    rw [hlength] at hts
    cases hspace : isSpace b with
    | true => exact ⟨ts, by rw [List.cons_append, tokensFrom_space hspace, hts], hnone⟩
    | false =>
      refine ⟨⟨[b], off⟩ :: ts, ?_, ?_⟩
      · rw [List.cons_append, tokensFrom_cons hspace, (tokenRest_loose hb).2]
        simp only [List.take_zero, List.drop_zero, Nat.add_zero, List.cons_append, hts]
      · rw [List.map_cons, endsIn, List.filter_cons_of_neg]
        · exact hnone
        · -- the token would be the byte of a mark
          intro hmark
          obtain ⟨b', hbyte, -, hnot⟩ := endWord_bytes (List.contains_iff_mem.1 hmark)
          rw [← (List.cons.inj hbyte).1, hb] at hnot
          cases hnot

/-- The brackets and separators of a text are in what is left of it without the blanks at its ends,
if that is stable and does not end in an escaped identifier. -/
theorem endsIn_trim {s : String} {off : Nat} (h : isStable (Text.trim s) = true)
    (hend : endsEscaped (Text.trim s) = false) :
    endsIn ((tokensFrom off 0 (bytes s)).map Token.text) = endsIn (words (Text.trim s)) := by
  obtain ⟨as, bs, hs, has, hbs, htrim⟩ := Text.exists_trim s
  have hloose {cs : List Char} (hcs : ∀ c ∈ cs, Text.isBlank c = true) :
      ∀ b ∈ encoded cs, isLoose b = true := by
    intro b hb
    obtain ⟨c, hc, hb⟩ := List.mem_flatMap.1 hb
    exact loose_of_blank (hcs c hc) b hb
  have hbytes : bytes s = encoded as ++ (bytes (Text.trim s) ++ encoded bs) := by
    rw [Text.bytes_eq_flatMap, Text.bytes_eq_flatMap (Text.trim s), hs, List.flatMap_append,
      List.flatMap_append]
    rfl
  obtain ⟨ts, hts, hnone⟩ := tokensFrom_loose (hloose has) off (bytes (Text.trim s) ++ encoded bs)
  have hopen : Opens (encoded bs) := by
    intro y hy
    exact (tokenRest_loose (hloose hbs y (List.mem_of_mem_head? hy))).1
  obtain ⟨us, hus, hnone'⟩ := tokensFrom_loose (hloose hbs)
    (off + (encoded as).length + (bytes (Text.trim s)).length) []
  rw [List.append_nil, tokensFrom, List.append_nil] at hus
  rw [endsIn] at hnone hnone' ⊢
  rw [hbytes, hts, (isPiece_of_stable htrim h hend).cut _ _ hopen, hus, List.map_append,
    List.map_append, List.filter_append, List.filter_append, hnone, hnone', words_tokensFrom, endsIn,
    List.nil_append, List.append_nil]

/-- A text that is read back in the middle of a declaration as it stands: it is left as it is when a
source is blanked out, and does not take in the mark behind it. -/
def isClear (s : String) : Bool := isStable s && !endsEscaped s

section
variable {text : String} {ts : List Token}

/-- What some tokens between two marks span, if it is clear, and its brackets and separators. -/
theorem Cut.isPiece (h : Cut (strip (bytes text)) ts)
    (hclear : isClear (spanText (strip (bytes text)) ts) = true) :
    IsPiece (spanText (strip (bytes text)) ts) ∧
      endsIn (words (spanText (strip (bytes text)) ts)) = endsIn (ts.map Token.text) := by
  obtain ⟨s, off, hts, hspan⟩ := h.exists_text
  rw [isClear, Bool.and_eq_true, Bool.not_eq_true', hspan] at hclear
  obtain ⟨-, -, -, -, -, htrim⟩ := Text.exists_trim s
  rw [hspan]
  refine ⟨isPiece_of_stable htrim hclear.1 hclear.2, ?_⟩
  rw [← endsIn_trim hclear.1 hclear.2, hts]

/-- A clear text between two marks is read back as a value if its tokens are. -/
theorem Cut.isValue (h : Cut (strip (bytes text)) ts)
    (hclosed : closedValue 0 (ts.map Token.text) = true)
    (hclear : isClear (spanText (strip (bytes text)) ts) = true) :
    IsValue (spanText (strip (bytes text)) ts) := by
  obtain ⟨hpiece, hends⟩ := h.isPiece hclear
  exact ⟨hpiece, by rw [← closedValue_endsIn, hends, closedValue_endsIn, hclosed]⟩

end

end TaskLoom.Source
