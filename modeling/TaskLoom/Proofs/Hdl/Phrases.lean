import TaskLoom.Hdl.Render
import TaskLoom.Proofs.Hdl.Inert

/-!
# Phrases of a rendered module

Names, numbers, constants, expressions, strings and ranges of a plain module are phrases, and so is
every fixed text that `isPhraseText` accepts.  The proof for expressions follows their structure.
-/

namespace TaskLoom.Source

open Text (bytes)

/-- Whether a fixed text is a phrase. -/
def isPhraseText (s : String) : Bool :=
  (bytes s).all (fun b => isOrdinary b && b != ascii '\\') &&
    (tokens (bytes s)).all fun t => !bodyWords.contains t.text

/-- Whether a fixed text is a phrase that no word can prolong. -/
def isFirmText (s : String) : Bool := isPhraseText s && !(bytes s).getLast?.any joins

theorem phrase_text {s : String} (h : isPhraseText s = true) :
    Kept (bytes s) ∧ ascii '"' ∉ bytes s ∧ Settled (bytes s) ∧ Harmless (tokens (bytes s)) := by
  rw [isPhraseText, Bool.and_eq_true, List.all_eq_true, List.all_eq_true] at h
  obtain ⟨hbytes, htokens⟩ := h
  have hordinary : ∀ b ∈ bytes s, isOrdinary b = true := fun b hb =>
    (Bool.and_eq_true_iff.1 (hbytes b hb)).1
  refine ⟨kept_of_ordinary hordinary, fun hq => ?_, settled_of_not_mem fun hq => ?_,
    fun t ht => ?_⟩
  · exact absurd (hordinary _ hq) (by decide)
  · have hslash := hbytes _ hq
    simp at hslash
  · simpa using htokens t ht

theorem Phrase.of_text {s : String} (h : isPhraseText s = true) : Phrase (bytes s) := by
  obtain ⟨hkept, hquote, hsettled, hharmless⟩ := phrase_text h
  exact ⟨hkept, skips_of_harmless hquote hsettled hharmless⟩

theorem Firm.of_text {s : String} (h : isFirmText s = true) : Firm (bytes s) := by
  rw [isFirmText, Bool.and_eq_true] at h
  obtain ⟨hkept, hquote, hsettled, hharmless⟩ := phrase_text h.1
  refine ⟨hkept, passes_of_harmless hquote hsettled (fun x hx => ?_) hharmless⟩
  have hlast := h.2
  rw [hx] at hlast
  simpa using hlast

/-- Whether a fixed text ends every word before it. -/
def isOpenText (s : String) : Bool := (bytes s).head?.any fun b => !continuesWord b

theorem opens_text {s : String} (h : isOpenText s = true) : Opens (bytes s) ∧ bytes s ≠ [] := by
  unfold isOpenText at h
  cases hs : bytes s with
  | nil => simp [hs] at h
  | cons b l =>
    refine ⟨fun y hy => ?_, List.cons_ne_nil b l⟩
    cases hy
    simpa [hs] using h

theorem opens_text_append {s : String} (h : isOpenText s = true) (c : List UInt8) :
    Opens (bytes s ++ c) := (opens_text h).1.append_left (opens_text h).2 c

/-- Whether a fixed text is a phrase that ends every word before it and that no word prolongs. -/
def isSeparatorText (s : String) : Bool := isFirmText s && isOpenText s

theorem Separator.of_text {s : String} (h : isSeparatorText s = true) : Separator (bytes s) := by
  rw [isSeparatorText, Bool.and_eq_true] at h
  exact ⟨.of_text h.1, (opens_text h.2).1, (opens_text h.2).2⟩

theorem Separator.opens_append {l : List UInt8} (h : Separator l) (c : List UInt8) :
    Opens (l ++ c) := h.opens.append_left h.ne_nil c

theorem bland_text {s : String} (h : isSeparatorText s = true) : Bland (bytes s) := by
  rw [isSeparatorText, isFirmText, Bool.and_eq_true, Bool.and_eq_true] at h
  obtain ⟨-, hquote, -, hharmless⟩ := phrase_text h.1.1
  exact ⟨hquote, hharmless⟩

theorem last_text {s : String} (h : isSeparatorText s = true) :
    ∀ x ∈ (bytes s).getLast?, joins x = false := by
  rw [isSeparatorText, isFirmText, Bool.and_eq_true, Bool.and_eq_true] at h
  intro x hx
  have hlast := h.1.2
  rw [hx] at hlast
  simpa using hlast

theorem unmarked_text {s : String} (h : (bytes s).all isOrdinary = true) : Unmarked (bytes s) :=
  unmarked_of_ordinary (List.all_eq_true.1 h)

theorem kept_text {s : String} (h : (bytes s).all isOrdinary = true) : Kept (bytes s) :=
  kept_of_ordinary (List.all_eq_true.1 h)

theorem separator_space : Separator (bytes " ") := .of_text (by decide)

theorem separator_newline : Separator (bytes "\n") := .of_text (by decide)

theorem separator_comma : Separator (bytes ",") := .of_text (by decide)

theorem separator_semicolon : Separator (bytes ";") := .of_text (by decide)

theorem separator_opening : Separator (bytes "(") := .of_text (by decide)

theorem separator_closing : Separator (bytes ")") := .of_text (by decide)

/-- A piece that is one word. -/
theorem phrase_of_word {s : String} {b : UInt8} {l : List UInt8} (hs : bytes s = b :: l)
    (hb : startsWord b = true) (hordinary : isOrdinary b = true)
    (hl : ∀ x ∈ l, continuesWord x = true) (h : s ∉ bodyWords) : Phrase (bytes s) := by
  have hrest (x : UInt8) (hx : continuesWord x = true) : isOrdinary x = true := by
    by_contra hno
    simp only [isOrdinary, Bool.and_eq_true, bne_iff_ne, not_and_or, not_not] at hno
    rcases hno with ((rfl | rfl) | rfl) | rfl <;> exact absurd hx (by decide)
  refine ⟨kept_of_ordinary fun x hx => ?_, fun off rest hrest => ?_⟩
  · rw [hs] at hx
    rcases List.mem_cons.1 hx with rfl | hx
    · exact hordinary
    · exact hrest x (hl x hx)
  · refine ⟨[⟨bytes s, off⟩], ?_, fun t ht => ?_⟩
    · rw [hs]
      exact tokensFrom_word hb hl hrest off
    · obtain rfl := List.mem_singleton.1 ht
      rwa [Token.text, Text.ofBytes_bytes]

/-- The bytes of a name, and the words that it is not. -/
theorem plainName_bytes {s : String} (h : isPlainName s = true) :
    ∃ b l, bytes s = b :: l ∧ startsName b = true ∧ (∀ x ∈ l, continuesName x = true) ∧
      s ∉ specialWords := by
  rw [isPlainName, Bool.and_eq_true] at h
  cases hs : bytes s with
  | nil => simp [hs] at h
  | cons b l =>
    simp only [hs, Bool.and_eq_true, List.all_eq_true] at h
    exact ⟨b, l, rfl, h.1.1, h.1.2, by simpa using h.2⟩

theorem startsWord_of_startsName {b : UInt8} (h : startsName b = true) :
    startsWord b = true ∧ continuesName b = true := by
  have hword : isWord b = true := by
    rw [isWord, Bool.or_eq_true]
    exact .inl h
  simp [startsWord, continuesName, hword]

theorem continuesWord_of_continuesName {b : UInt8} (h : continuesName b = true) :
    continuesWord b = true := by
  rw [continuesName] at h
  simp [continuesWord, h]

theorem isOrdinary_of_startsWord {b : UInt8} (h : startsWord b = true) (htick : b ≠ backtick) :
    isOrdinary b = true := by
  by_contra hno
  simp only [isOrdinary, Bool.and_eq_true, bne_iff_ne, not_and_or, not_not] at hno
  rcases hno with ((rfl | hb) | rfl) | rfl
  · exact absurd h (by decide)
  · exact htick hb
  · exact absurd h (by decide)
  · exact absurd h (by decide)

theorem Phrase.of_name {s : String} (h : isPlainName s = true) : Phrase (bytes s) := by
  obtain ⟨b, l, hs, hb, hl, hspecial⟩ := plainName_bytes h
  refine phrase_of_word hs (startsWord_of_startsName hb).1 ?_
    (fun x hx => continuesWord_of_continuesName (hl x hx)) fun hbody => hspecial ?_
  · refine isOrdinary_of_startsWord (startsWord_of_startsName hb).1 ?_
    rintro rfl
    exact absurd hb (by decide)
  · have hsub : ∀ w ∈ bodyWords, w ∈ specialWords := by decide
    exact hsub s hbody

/-- The bytes of a number. -/
theorem isNumber_bytes {s : String} (h : isNumber s = true) :
    ∃ b l, bytes s = b :: l ∧ ((48 ≤ b && b ≤ 57) || b == ascii '\'') = true ∧
      ∀ x ∈ l, continuesWord x = true := by
  rw [isNumber] at h
  cases hs : bytes s with
  | nil => simp [hs] at h
  | cons b l =>
    simp only [hs, Bool.and_eq_true, List.all_eq_true] at h
    exact ⟨b, l, rfl, h⟩

/-- A number begins as a word, and not as a name. -/
theorem startsWord_of_number {b : UInt8} (h : ((48 ≤ b && b ≤ 57) || b == ascii '\'') = true) :
    startsWord b = true ∧ startsName b = false := by
  rcases Bool.or_eq_true_iff.1 h with hb | hb
  · rw [Bool.and_eq_true, decide_eq_true_eq, decide_eq_true_eq] at hb
    have hle : b.toNat ≤ 57 := hb.2
    have hne : b ≠ ascii '_' := by
      rintro rfl
      exact absurd hle (by decide)
    refine ⟨by simp [startsWord, isWord, hb], ?_⟩
    simp [startsName, hne, UInt8.le_iff_toNat_le]
    omega
  · obtain rfl := eq_of_beq hb
    decide

theorem Phrase.of_number {s : String} (h : isNumber s = true) : Phrase (bytes s) := by
  obtain ⟨b, l, hs, hb, hl⟩ := isNumber_bytes h
  have hstart := (startsWord_of_number hb).1
  refine phrase_of_word hs hstart (isOrdinary_of_startsWord hstart ?_) hl fun hbody => ?_
  · rintro rfl
    exact absurd hb (by decide)
  · -- the words of a body begin with letters
    have hfirst : ∀ w ∈ bodyWords, (bytes w).head?.any
        (fun x => (48 ≤ x && x ≤ 57) || x == ascii '\'') = false := by decide
    have hnot := hfirst s hbody
    rw [hs, List.head?_cons, Option.any_some, hb] at hnot
    cases hnot

/-- The bytes of a text are all of some kind if its characters are ASCII characters of that kind. -/
theorem bytes_all {cs : List Char} {P : UInt8 → Prop}
    (h : ∀ c ∈ cs, c.toNat < 128 ∧ P c.toNat.toUInt8) :
    ∀ b ∈ cs.flatMap String.utf8EncodeChar, P b := by
  intro b hb
  obtain ⟨c, hc, hbc⟩ := List.mem_flatMap.1 hb
  obtain ⟨hlt, hp⟩ := h c hc
  rw [Text.encode_ascii hlt, List.mem_singleton] at hbc
  exact hbc ▸ hp

/-- A character of a number. -/
def isNumberChar (c : Char) : Bool := c.isDigit || ['\'', 'b', 'd'].contains c

theorem digit_byte {c : Char} (h : c.isDigit = true) : c.toNat < 128 ∧
    (48 ≤ c.toNat.toUInt8 && c.toNat.toUInt8 ≤ 57) = true ∧
      continuesWord c.toNat.toUInt8 = true := by
  have hdigits : ∀ n < 58, 48 ≤ n → n < 128 ∧
      (48 ≤ n.toUInt8 && n.toUInt8 ≤ 57) = true ∧ continuesWord n.toUInt8 = true := by decide
  rw [Char.isDigit_iff_toNat] at h
  exact hdigits c.toNat (by have := h.2; simp at this; omega) (by simpa using h.1)

theorem isNumber_of_chars {c : Char} {cs : List Char} (hc : c.isDigit = true ∨ c = '\'')
    (hcs : ∀ x ∈ cs, isNumberChar x = true) : isNumber (String.ofList (c :: cs)) = true := by
  have hrest : ∀ x ∈ cs, x.toNat < 128 ∧ continuesWord x.toNat.toUInt8 = true := by
    intro x hx
    have hx := hcs x hx
    rw [isNumberChar, Bool.or_eq_true, List.contains_iff_mem] at hx
    rcases hx with hx | hx
    · exact ⟨(digit_byte hx).1, (digit_byte hx).2.2⟩
    · simp only [List.mem_cons, List.not_mem_nil, or_false] at hx
      rcases hx with rfl | rfl | rfl <;> decide
  have hfirst : c.toNat < 128 ∧ ((48 ≤ c.toNat.toUInt8 && c.toNat.toUInt8 ≤ 57) ||
      c.toNat.toUInt8 == ascii '\'') = true := by
    rcases hc with hc | rfl
    · simp [digit_byte hc]
    · decide
  rw [isNumber, Text.bytes_ofList, List.flatMap_cons, Text.encode_ascii hfirst.1,
    List.singleton_append]
  simp only [Bool.and_eq_true, List.all_eq_true]
  exact ⟨hfirst.2, bytes_all hrest⟩

theorem isNumber_constText (width : Int) (value : UInt64) :
    isNumber (Expr.constText width value) = true := by
  have hdigits (b n : Nat) (hb : 0 < b) (hb' : b ≤ 10) : ∀ c ∈ Nat.toDigits b n,
      isNumberChar c = true := by
    intro c hc
    simp [isNumberChar, Nat.isDigit_of_mem_toDigits hb hb' hc]
  -- a width, a tick with the letter of the base, and digits
  have hsized (w : Nat) (letter : Char) (hletter : isNumberChar letter = true) (ds : List Char)
      (hds : ∀ c ∈ ds, isNumberChar c = true) : isNumber (toString w ++
        String.ofList ['\'', letter] ++ String.ofList ds) = true := by
    cases hw : Nat.toDigits 10 w with
    | nil => exact absurd hw Nat.toDigits_ne_nil
    | cons c cs =>
      rw [Nat.toString_eq_ofList_toDigits, hw, ← String.ofList_append, ← String.ofList_append]
      have hcs := hdigits 10 w (by decide) (by decide)
      rw [hw] at hcs
      refine isNumber_of_chars (.inl (Nat.isDigit_of_mem_toDigits (b := 10) (n := w) (by decide)
        (by decide) (by simp [hw]))) fun x hx => ?_
      have hx : x ∈ cs ++ ['\'', letter] ++ ds := hx
      simp only [List.mem_append, List.mem_cons, List.not_mem_nil, or_false] at hx
      rcases hx with (hx | rfl | rfl) | hx
      · exact hcs x (List.mem_cons_of_mem _ hx)
      · decide
      · exact hletter
      · exact hds x hx
  unfold Expr.constText
  split
  · have htick : "'d" ++ toString value.toNat =
        String.ofList ('\'' :: 'd' :: Nat.toDigits 10 value.toNat) := by
      rw [Nat.toString_eq_ofList_toDigits, show "'d" = String.ofList ['\'', 'd'] from rfl,
        ← String.ofList_append]
      rfl
    rw [htick]
    refine isNumber_of_chars (.inr rfl) fun x hx => ?_
    rcases List.mem_cons.1 hx with rfl | hx
    · decide
    · exact hdigits 10 _ (by decide) (by decide) x hx
  · rename_i hwidth
    obtain ⟨w, rfl⟩ := Int.eq_ofNat_of_zero_le (a := width) (by omega)
    have hshown : toString (w : Int) = toString w := rfl
    rw [hshown]
    split
    · refine hsized w 'b' (by decide) _ fun x hx => ?_
      rcases List.mem_append.1 hx with hx | hx
      · rw [List.eq_of_mem_replicate hx]
        decide
      · exact hdigits 2 _ (by decide) (by decide) x hx
    · rw [Nat.toString_eq_ofList_toDigits (n := value.toNat)]
      exact hsized w 'd' (by decide) _ (hdigits 10 _ (by decide) (by decide))

/-! ### Expressions -/

theorem phrase_intercalate {sep : String} (hsep : Separator (bytes sep)) {ss : List String}
    (h : ∀ s ∈ ss, Phrase (bytes s)) : Phrase (bytes (String.intercalate sep ss)) := by
  induction ss with
  | nil => exact Phrase.nil
  | cons s ss ih =>
    have hs := h s List.mem_cons_self
    cases ss with
    | nil => rwa [String.intercalate_singleton]
    | cons t ss =>
      have hrest := ih fun u hu => h u (List.mem_cons_of_mem _ hu)
      rw [String.intercalate_cons_cons, Text.bytes_append, Text.bytes_append]
      exact (hs.append_separator hsep).append_phrase hrest

theorem phrase_parenthesize (e : Expr) {s : String} (h : Phrase (bytes s)) :
    Phrase (bytes (e.parenthesize s)) := by
  unfold Expr.parenthesize
  split
  · rw [Text.bytes_append, Text.bytes_append]
    exact ((separator_opening.append_phrase h).append_separator separator_closing).phrase
  · exact h

theorem UnaryOp.firm (op : UnaryOp) : Firm (bytes op.text) := by
  cases op <;> exact .of_text (by decide)

theorem BinaryOp.separator (op : BinaryOp) : Separator (bytes (" " ++ op.text ++ " ")) := by
  cases op <;> exact .of_text (by decide)

mutual

theorem phrase_expr : ∀ e : Expr, e.isPlain = true → Phrase (bytes e.text)
  | .absent, _ => Phrase.nil
  | .ident _, h => .of_name h
  | .const width value, _ => .of_number (isNumber_constText width value)
  | .literal _, h => .of_number h
  | .unary op x, h => by
    rw [Expr.text, Text.bytes_append]
    exact (UnaryOp.firm op).append_phrase (phrase_parenthesize x (phrase_expr x h))
  | .binary op x y, h => by
    rw [Expr.isPlain, Bool.and_eq_true] at h
    have hx := phrase_parenthesize x (phrase_expr x h.1)
    have hy := phrase_parenthesize y (phrase_expr y h.2)
    have htext : (Expr.binary op x y).text = x.parenthesize x.text ++ (" " ++ op.text ++ " ") ++
        y.parenthesize y.text := by
      simp [Expr.text, String.append_assoc]
    rw [htext, Text.bytes_append, Text.bytes_append]
    exact (hx.append_separator (BinaryOp.separator op)).append_phrase hy
  | .all [], _ => .of_number (isNumber_constText 1 1)
  | .all [t], h => by
    rw [Expr.isPlain, Expr.arePlain, Bool.and_eq_true] at h
    exact phrase_expr t h.1
  | .all (t :: u :: ts), h =>
    phrase_intercalate (.of_text (by decide)) (phrase_operands (t :: u :: ts) h)

theorem phrase_operands : ∀ es : List Expr, Expr.arePlain es = true →
    ∀ s ∈ Expr.operands es, Phrase (bytes s)
  | [], _, _, hs => by simp [Expr.operands] at hs
  | e :: es, h, s, hs => by
    rw [Expr.arePlain, Bool.and_eq_true] at h
    rcases List.mem_cons.1 hs with rfl | hs
    · exact phrase_parenthesize e (phrase_expr e h.1)
    · exact phrase_operands es h.2 s hs

end

theorem quotable_of_plain {l : List UInt8}
    (h : ∀ b ∈ l, b ≠ ascii '"' ∧ b ≠ ascii '\\' ∧ b ≠ newline) : Quotable l := by
  induction l with
  | nil => exact .nil
  | cons b l ih =>
    obtain ⟨hquote, hslash, hline⟩ := h b List.mem_cons_self
    exact .plain hquote hslash hline (ih fun x hx => h x (List.mem_cons_of_mem _ hx))

theorem quotable_hexDigits (width n : Nat) :
    Quotable ((Text.hexDigits width n).flatMap String.utf8EncodeChar) := by
  have hdigit : ∀ k < 16, k.digitChar.toNat < 128 ∧ k.digitChar.toNat.toUInt8 ≠ ascii '"' ∧
      k.digitChar.toNat.toUInt8 ≠ ascii '\\' ∧ k.digitChar.toNat.toUInt8 ≠ newline := by decide
  refine quotable_of_plain (bytes_all fun c hc => ?_)
  obtain ⟨i, -, rfl⟩ := List.mem_map.1 hc
  exact hdigit _ (Nat.mod_lt _ (by decide))

theorem quotable_escape (c : Char) :
    Quotable ((Text.escape c).flatMap String.utf8EncodeChar) := by
  have hlong (x : Char) (hx : x.toNat < 128) (width : Nat) :
      Quotable (('\\' :: x :: Text.hexDigits width c.toNat).flatMap String.utf8EncodeChar) := by
    rw [List.flatMap_cons, List.flatMap_cons, Text.encode_ascii hx]
    exact .escaped _ (quotable_hexDigits width c.toNat)
  unfold Text.escape
  split
  iterate 7 exact .escaped _ .nil
  split
  · exact hlong 'x' (by decide) 2
  · split
    · exact hlong 'u' (by decide) 4
    · exact hlong 'U' (by decide) 8

theorem quotable_quoteChar (c : Char) :
    Quotable ((Text.quoteChar c).flatMap String.utf8EncodeChar) := by
  unfold Text.quoteChar
  split
  · rename_i hc
    rw [Bool.or_eq_true, decide_eq_true_eq, decide_eq_true_eq] at hc
    rcases hc with rfl | rfl
    · exact .escaped _ .nil
    · exact .escaped _ .nil
  · rename_i hc
    split
    · rename_i hprint
      rw [Bool.or_eq_true, decide_eq_true_eq, decide_eq_true_eq, not_or] at hc
      rw [List.flatMap_singleton]
      have hne (d : Char) (hd : d.toNat < 128) (hcd : c ≠ d) :
          ∀ b ∈ String.utf8EncodeChar c, b ≠ ascii d := by
        rintro b hb rfl
        have hval : (ascii d).toNat = d.toNat := by
          rw [ascii, Nat.toUInt8, UInt8.toNat_ofNat', Nat.mod_eq_of_lt (by omega)]
        have hcode := (Text.encode_of_ascii hb (by omega)).2
        exact hcd (Char.toNat_inj.1 (hcode.trans hval))
      refine quotable_of_plain fun b hb => ⟨hne '"' (by decide) hc.1 b hb,
        hne '\\' (by decide) hc.2 b hb, hne '\n' (by decide) ?_ b hb⟩
      rintro rfl
      exact absurd hprint (by decide)
    · exact quotable_escape c

theorem firm_quote (s : String) : Firm (bytes (Text.quote s)) := by
  have hinside : Quotable ((s.toList.flatMap Text.quoteChar).flatMap String.utf8EncodeChar) := by
    induction s.toList with
    | nil => exact .nil
    | cons c cs ih =>
      rw [List.flatMap_cons, List.flatMap_append]
      exact (quotable_quoteChar c).append ih
  have hbytes : bytes (Text.quote s) = ascii '"' ::
      ((s.toList.flatMap Text.quoteChar).flatMap String.utf8EncodeChar ++ [ascii '"']) := by
    rw [Text.quote, Text.bytes_ofList, List.flatMap_cons, List.flatMap_append]
    rfl
  have hsafe : Safe (bytes (Text.quote s)) := by
    rw [hbytes]
    rintro y hy
    cases hy
    decide
  refine ⟨⟨hsafe, hbytes ▸ erases_quoted hinside⟩, fun off rest => ?_⟩
  refine ⟨[⟨bytes (Text.quote s), off⟩], ?_, fun t ht => ?_⟩
  · have hlen : (bytes (Text.quote s)).length =
        ((s.toList.flatMap Text.quoteChar).flatMap String.utf8EncodeChar).length + 2 := by
      rw [hbytes]
      simp
    rw [hlen, hbytes]
    exact tokensFrom_quoted hinside off rest
  · obtain rfl := List.mem_singleton.1 ht
    rw [Token.text, Text.ofBytes_bytes]
    intro hword
    have hfirst : ∀ w ∈ bodyWords, (bytes w).head? ≠ some (ascii '"') := by decide
    exact hfirst _ hword (by rw [hbytes]; rfl)

theorem isChain_of_upTo? {x y : UInt8} {l : List UInt8} (h : upTo? x y l = none) :
    l.IsChain fun a b => ¬ (a = x ∧ b = y) := by
  induction l with
  | nil => exact .nil
  | cons a l ih =>
    cases l with
    | nil => exact .singleton a
    | cons b l =>
      rw [upTo?] at h
      split at h
      · cases h
      · rename_i hab
        refine .cons_cons ?_ (ih (by simpa using h))
        simpa using hab

theorem IsText.unmarked {s : String} (h : IsText s) : Unmarked (bytes s) := by
  have hline := isChain_of_upTo? (eq_of_beq h.lineComment)
  have hblock := isChain_of_upTo? (eq_of_beq h.blockComment)
  have hattr := isChain_of_upTo? (eq_of_beq h.attributes)
  refine ⟨h.quote, h.tick, ?_⟩
  rw [List.isChain_iff_getElem] at hline hblock hattr ⊢
  intro i hi
  exact ⟨fun hxy => hxy.2.elim (fun hy => hline i hi ⟨hxy.1, hy⟩)
    fun hy => hblock i hi ⟨hxy.1, hy⟩, hattr i hi⟩

/-- A bound between two fixed texts. -/
theorem IsText.enclosed {s before behind : String} (h : IsText s)
    (hbefore : Unmarked (bytes before))
    (hlast : (bytes before).getLast?.all (fun x => x != ascii '/' && x != ascii '(') = true)
    (hbehind : (bytes behind).all isOrdinary = true) :
    Unmarked (bytes (before ++ s ++ behind)) := by
  rw [Text.bytes_append, Text.bytes_append]
  refine (hbefore.append h.unmarked fun x hx y _ => ?_).append (unmarked_text hbehind) fun x _ =>
    NoMark.of_safe (kept_text hbehind).safe x
  have hx := (Option.all_eq_true _ _).1 hlast x hx
  rw [Bool.and_eq_true, bne_iff_ne, bne_iff_ne] at hx
  exact ⟨fun hxy => hx.1 hxy.1, fun hxy => hx.2 hxy.1⟩

theorem kept_rangeSuffix {r : Option BitRange} (h : RangeOf IsText r) :
    Kept (bytes (rangeSuffix r)) := by
  cases r with
  | none => exact Kept.nil
  | some b =>
    obtain ⟨hm, hl⟩ := h b rfl
    have hmsb : Unmarked (bytes (" [" ++ b.msb ++ ":")) :=
      hm.enclosed (unmarked_text (by decide)) (by decide) (by decide)
    have hborder : (bytes (" [" ++ b.msb ++ ":")).getLast?.all
        (fun x => x != ascii '/' && x != ascii '(') = true := by
      rw [Text.bytes_append, List.getLast?_append_of_ne_nil _ (by decide)]
      decide
    have hall : Unmarked (bytes (" [" ++ b.msb ++ ":" ++ b.lsb ++ "]")) :=
      hl.enclosed hmsb hborder (by decide)
    have htext : rangeSuffix (some b) = " [" ++ b.msb ++ ":" ++ b.lsb ++ "]" := by
      simp [rangeSuffix, BitRange.text, ← String.append_assoc]
    rw [htext]
    refine ⟨?_, hall.erases⟩
    simp only [Text.bytes_append, List.append_assoc]
    exact (kept_text (by decide)).safe.append_left (by decide) _

/-- A range in a body, with the blank behind it, which ends the last escaped identifier. -/
theorem separator_rangeSuffix {r : Option BitRange} (h : RangeOf IsText r) (hs : RangeOf Silent r) :
    Separator (bytes (rangeSuffix r) ++ bytes " ") := by
  cases r with
  | none => exact separator_space
  | some b =>
    obtain ⟨hm, hl⟩ := h b rfl
    obtain ⟨hms, hls⟩ := hs b rfl
    have hopening : isSeparatorText " [" = true := by decide
    have hcolon : isSeparatorText ":" = true := by decide
    have hclosing : isSeparatorText "] " = true := by decide
    have hlsb : Bland (bytes b.lsb ++ bytes "] ") :=
      Bland.append_opens ⟨hl.quote, hls⟩ (bland_text hclosing) (Separator.of_text hclosing).opens
    have hbounds : Bland (bytes b.msb ++ (bytes ":" ++ (bytes b.lsb ++ bytes "] "))) := by
      refine Bland.append_opens ⟨hm.quote, hms⟩ ?_ ((Separator.of_text hcolon).opens_append _)
      exact (bland_text hcolon).append_ended (last_text hcolon) hlsb
    have hall := (bland_text hopening).append_ended (last_text hopening) hbounds
    have htext : bytes (rangeSuffix (some b)) ++ bytes " " = bytes " [" ++ (bytes b.msb ++
        (bytes ":" ++ (bytes b.lsb ++ bytes "] "))) := by
      have hend : bytes "] " = bytes "]" ++ bytes " " := by decide
      have hfront : bytes " [" = bytes " " ++ bytes "[" := by decide
      simp only [rangeSuffix, BitRange.text, Text.bytes_append, List.append_assoc, hend, hfront]
    have hspace : bytes " " = [32] := by decide
    rw [← htext] at hall
    refine ⟨⟨(kept_rangeSuffix h).append separator_space.toKept, ?_⟩, ?_, ?_⟩
    · refine passes_of_harmless hall.quote (hspace ▸ settled_append_space (by decide) _)
        (fun x hx => ?_) hall.harmless
      rw [hspace, List.getLast?_concat] at hx
      cases hx
      decide
    · rw [htext]
      exact (Separator.of_text hopening).opens_append _
    · simp [hspace]

end TaskLoom.Source
