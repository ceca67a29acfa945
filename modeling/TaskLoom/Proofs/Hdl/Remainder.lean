import TaskLoom.Proofs.Hdl.Phrases

/-!
# What is left of a source

`left clean c` are the tokens that are left when a reader of the source `clean` stands before its
end `c`.  A blank, a word and a mark each take a reader from `left clean (l ++ c)` to
`left clean c`, and so do the tokens of a bound or a value, which span its text (`left_piece`).
A bound and a value end where the source ends them if their brackets close (`closedBound`,
`closedValue`), so that the ranges of declarations are read back (`typeAndRange_read`).
-/

namespace TaskLoom.Source

open Text (bytes)

/-! ### What is left of a source -/

/-- The tokens of the end `c` of a source. -/
def left (clean c : List UInt8) : List Token := tokensFrom (clean.length - c.length) 0 c

/-- The token of a text that stands before the end `c` of a source. -/
def tokenAt (clean : List UInt8) (s : String) (c : List UInt8) : Token :=
  ⟨bytes s, clean.length - (bytes s ++ c).length⟩

@[simp] theorem tokenAt_text (clean : List UInt8) (s : String) (c : List UInt8) :
    (tokenAt clean s c).text = s := Text.ofBytes_bytes s

section
variable {clean l c : List UInt8} {s : String}

theorem behind (h : l ++ c <:+ clean) : c <:+ clean := (List.suffix_append l c).trans h

theorem offset_behind (h : l ++ c <:+ clean) :
    clean.length - (l ++ c).length + l.length = clean.length - c.length := by
  have hle := h.length_le
  rw [List.length_append] at hle ⊢
  omega

theorem left_blank (hl : ∀ b ∈ l, isSpace b = true) (h : l ++ c <:+ clean) :
    left clean (l ++ c) = left clean c := by
  rw [left, left, ← offset_behind h]
  generalize clean.length - (l ++ c).length = off
  clear h
  induction l generalizing off with
  | nil => rfl
  | cons b l ih =>
    rw [List.cons_append, tokensFrom_space (hl b List.mem_cons_self),
      ih (fun x hx => hl x (List.mem_cons_of_mem _ hx)), List.length_cons]
    congr 1
    omega

theorem left_space (h : bytes " " ++ c <:+ clean) : left clean (bytes " " ++ c) = left clean c :=
  left_blank (List.all_eq_true.1 (by decide)) h

theorem left_newline (h : bytes "\n" ++ c <:+ clean) :
    left clean (bytes "\n" ++ c) = left clean c :=
  left_blank (List.all_eq_true.1 (by decide)) h

/-- A text that is one token, if no word goes on behind it. -/
def isWordText (s : String) : Bool :=
  match bytes s with
  | [] => false
  | b :: l => startsWord b && l.all continuesWord

/-- A text that is one token, whatever stands behind it. -/
def isMarkText (s : String) : Bool :=
  match bytes s with
  | [b] => !isSpace b && b != ascii '"' && b != ascii '\\' && !startsWord b
  | _ => false

theorem left_word (hs : isWordText s = true) (hopen : Opens c) (h : bytes s ++ c <:+ clean) :
    left clean (bytes s ++ c) = tokenAt clean s c :: left clean c := by
  rw [left, left, ← offset_behind h, tokenAt]
  generalize clean.length - (bytes s ++ c).length = off
  rw [isWordText] at hs
  cases hb : bytes s with
  | nil => simp [hb] at hs
  | cons b l =>
    simp only [hb, Bool.and_eq_true, List.all_eq_true] at hs
    exact tokensFrom_word hs.1 hs.2 hopen off

theorem left_mark (hs : isMarkText s = true) (h : bytes s ++ c <:+ clean) :
    left clean (bytes s ++ c) = tokenAt clean s c :: left clean c := by
  rw [left, left, ← offset_behind h, tokenAt]
  generalize clean.length - (bytes s ++ c).length = off
  unfold isMarkText at hs
  split at hs
  · rename_i b hb
    simp only [Bool.and_eq_true, Bool.not_eq_true', bne_iff_ne] at hs
    rw [hb]
    exact tokensFrom_mark hs.1.1.1 hs.1.1.2 hs.1.2 hs.2 off c
  · cases hs

end

/-- Whether a text that stands as a token is a name. -/
def isNameText (s : String) : Bool := Token.isName ⟨bytes s, 0⟩

/-- An identifier that begins with a backslash and goes on up to the next blank. -/
def isEscaped (s : String) : Bool :=
  (bytes s).head? == some (ascii '\\') && (bytes s).all (!isSpace ·)

/-- A name as a source writes it: a word or an escaped identifier. -/
structure IsName (s : String) : Prop where
  name : isNameText s = true
  shape : isWordText s = true ∨ isEscaped s = true

theorem isName_tokenAt (clean : List UInt8) (s : String) (c : List UInt8) :
    (tokenAt clean s c).isName = isNameText s := rfl

/-- A name is no keyword and no mark. -/
theorem name_ne {s w : String} (h : isNameText s = true) (hw : isNameText w = false) :
    (s == w) = false := by
  refine beq_eq_false_iff_ne.2 ?_
  rintro rfl
  rw [h] at hw
  cases hw

theorem isWordText_name {s : String} (h : isPlainName s = true) : isWordText s = true := by
  obtain ⟨b, l, hs, hb, hl, -⟩ := plainName_bytes h
  simp only [isWordText, hs, (startsWord_of_startsName hb).1, Bool.true_and, List.all_eq_true]
  exact fun x hx => continuesWord_of_continuesName (hl x hx)

theorem isNameText_plain {s : String} (h : isPlainName s = true) : isNameText s = true := by
  obtain ⟨b, l, hs, hb, -, hspecial⟩ := plainName_bytes h
  have hreserved : s ∉ reservedWords := fun hmem =>
    hspecial (List.mem_append_left _ (List.mem_append_left _ hmem))
  have hfirst : (b == ascii '_' || b == ascii '\\' || (97 ≤ b && b ≤ 122) ||
      (65 ≤ b && b ≤ 90)) = true := by
    simp only [startsName, Bool.or_eq_true] at hb ⊢
    rcases hb with (hb | hb) | hb
    · exact .inl (.inl (.inl hb))
    · exact .inl (.inr hb)
    · exact .inr hb
  have htext : Token.text ⟨bytes s, 0⟩ = s := Text.ofBytes_bytes s
  rw [isNameText, Token.isName, htext]
  simp only [hs, hfirst, Bool.true_and]
  simpa using hreserved

theorem not_typeWord {s : String} (h : isPlainName s = true) : s ∉ typeWords := by
  obtain ⟨-, -, -, -, -, hspecial⟩ := plainName_bytes h
  exact fun hmem => hspecial (List.mem_append_left _ (List.mem_append_right _ hmem))

theorem IsName.of_plain {s : String} (h : isPlainName s = true) : IsName s :=
  ⟨isNameText_plain h, .inl (isWordText_name h)⟩

theorem isEscaped_first {s : String} (h : isEscaped s = true) :
    ∃ l, bytes s = ascii '\\' :: l ∧ ∀ b ∈ l, (!isSpace b) = true := by
  rw [isEscaped, Bool.and_eq_true, beq_iff_eq, List.all_eq_true] at h
  obtain ⟨l, hl⟩ := List.head?_eq_some_iff.1 h.1
  exact ⟨l, hl, fun b hb => h.2 b (hl ▸ List.mem_cons_of_mem _ hb)⟩

theorem not_escaped_word {s : String} (h : isWordText s = true) : isEscaped s = false := by
  rw [← Bool.not_eq_true]
  intro hescaped
  obtain ⟨l, hl, -⟩ := isEscaped_first hescaped
  rw [isWordText, hl] at h
  exact absurd (Bool.and_eq_true_iff.1 h).1 (by decide)

theorem IsName.word {s : String} (h : IsName s) (hs : isEscaped s = false) :
    isWordText s = true := by
  rcases h.shape with hword | hescaped
  · exact hword
  · rw [hs] at hescaped
    cases hescaped

/-- An escaped identifier is none of the words that begin with a letter. -/
theorem escaped_ne {s w : String} (h : isEscaped s = true) (hw : isEscaped w = false) : s ≠ w := by
  rintro rfl
  rw [h] at hw
  cases hw

/-- What stands right behind an escaped identifier belongs to it. -/
theorem isName_escaped_append {s t : String} (h : isEscaped s = true)
    (ht : (bytes t).all (!isSpace ·) = true) :
    IsName (s ++ t) ∧ isEscaped (s ++ t) = true := by
  obtain ⟨l, hl, hkept⟩ := isEscaped_first h
  have hbytes : bytes (s ++ t) = ascii '\\' :: (l ++ bytes t) := by
    rw [Text.bytes_append, hl, List.cons_append]
  have hescaped : isEscaped (s ++ t) = true := by
    rw [isEscaped, hbytes, Bool.and_eq_true, List.all_cons, List.all_append, ht,
      List.all_eq_true.2 hkept]
    exact ⟨rfl, rfl⟩
  refine ⟨⟨?_, .inr hescaped⟩, hescaped⟩
  have htext : Token.text ⟨bytes (s ++ t), 0⟩ = s ++ t := Text.ofBytes_bytes _
  rw [isNameText, Token.isName, htext, hbytes]
  have hreserved : ∀ w ∈ reservedWords, isEscaped w = false := by decide
  have hnot : s ++ t ∉ reservedWords := fun hmem =>
    escaped_ne hescaped (hreserved _ hmem) rfl
  simpa using hnot

/-- A name in front of a blank is a token. -/
theorem left_name {clean c : List UInt8} {s : String} (hs : IsName s)
    (hblank : ∀ y ∈ c.head?, isSpace y = true) (h : bytes s ++ c <:+ clean) :
    left clean (bytes s ++ c) = tokenAt clean s c :: left clean c := by
  rcases hs.shape with hword | hescaped
  · refine left_word hword (fun y hy => ?_) h
    have hy := hblank y hy
    simp only [isSpace, Bool.or_eq_true, beq_iff_eq] at hy
    rcases hy with ((rfl | rfl) | rfl) | rfl <;> rfl
  · obtain ⟨l, hl, hkept⟩ := isEscaped_first hescaped
    rw [left, left, ← offset_behind h, tokenAt]
    generalize clean.length - (bytes s ++ c).length = off
    have hstop : c.takeWhile (!isSpace ·) = [] := by
      cases c with
      | nil => rfl
      | cons y c => exact List.takeWhile_cons_of_neg (by simp [hblank y rfl])
    rw [hl]
    refine tokensFrom_token (by decide) ?_ off
    rw [tokenRest_unquoted (by decide), if_pos rfl, List.takeWhile_append_of_pos hkept, hstop,
      List.append_nil]

theorem direction?_name {s : String} (h : isNameText s = true) : direction? s = none := by
  have hne (w : String) (hw : isNameText w = false) : (s == w) = false := name_ne h hw
  rw [direction?, hne "input" (by decide), hne "output" (by decide), hne "inout" (by decide)]
  rfl

theorem direction?_keyword {d : Direction} (h : d ≠ .unknown) : direction? d.keyword = some d := by
  cases d <;> first | rfl | exact absurd rfl h

theorem expect_tokenAt (clean : List UInt8) (s : String) (c : List UInt8) (ts : List Token) :
    expect s (tokenAt clean s c :: ts) = .ok ((), ts) := by
  simp [expect]

/-- The words of a text. -/
def words (s : String) : List String := (tokens (bytes s)).map Token.text

theorem words_tokensFrom (off : Nat) (s : String) :
    (tokensFrom off 0 (bytes s)).map Token.text = words s := by
  have hofBytes := congrArg (List.map Text.ofBytes) (bytes_tokensFrom off 0 0 (bytes s))
  rwa [List.map_map, List.map_map] at hofBytes

/-- The depth of brackets behind a word; there may be more closing ones than opening ones. -/
def depthBehind (d : Int) (w : String) : Int :=
  if opens w then d + 1 else if closes w then d - 1 else d

/-- Whether no bracket and no colon among some words ends the bound before its end does.  Only the
upper bound ends in a colon, and only that one needs as many closing brackets as opening ones. -/
def closedBound (upper : Bool) : (depth : Int) → List String → Bool
  | d, [] => if upper then d == 0 else d ≤ 0
  | d, w :: ws => !(w == "]" && d ≤ 0) && !(upper && w == ":" && d == 0) &&
      closedBound upper (depthBehind d w) ws

/-- Whether the brackets of some words match and no comma or semicolon stands outside them. -/
def closedValue : (depth : Nat) → List String → Bool
  | d, [] => d == 0
  | d, w :: ws =>
    if opens w then closedValue (d + 1) ws
    else if closes w then d != 0 && closedValue (d - 1) ws
    else (d != 0 || !(w == "," || w == ";")) && closedValue d ws

/-- A text without blanks at its ends that is cut into the same tokens before every mark. -/
structure IsPiece (s : String) : Prop where
  trimmed : Text.trim s = s
  cut : ∀ off rest, Opens rest → tokensFrom off 0 (bytes s ++ rest) =
    tokensFrom off 0 (bytes s) ++ tokensFrom (off + (bytes s).length) 0 rest

/-- A text that is read back as the value of a parameter. -/
structure IsValue (s : String) : Prop extends IsPiece s where
  closed : closedValue 0 (words s) = true

/-- A range that is read back. -/
structure IsRange (r : BitRange) : Prop where
  msb : IsPiece r.msb
  lsb : IsPiece r.lsb
  upper : closedBound true 0 (words r.msb) = true
  lower : closedBound false 0 (words r.lsb) = true

theorem closedValue_balanced {d : Nat} {ws : List String} (h : balanced d ws = true) :
    closedValue d ws = true := by
  induction ws generalizing d with
  | nil => exact h
  | cons w ws ih =>
    rw [balanced] at h
    rw [closedValue]
    split_ifs at h ⊢
    · exact ih h
    · rw [Bool.and_eq_true] at h ⊢
      exact ⟨h.1, ih h.2⟩
    · rw [Bool.and_eq_true, Bool.or_eq_true] at h ⊢
      refine ⟨h.1.imp_right fun hw => ?_, ih h.2⟩
      simp only [List.contains_cons, Bool.not_eq_true', Bool.or_eq_false_iff] at hw ⊢
      exact ⟨hw.1, hw.2.1⟩

theorem closedBound_balanced {upper : Bool} {d : Nat} {ws : List String}
    (h : balanced d ws = true) : closedBound upper d ws = true := by
  induction ws generalizing d with
  | nil =>
    obtain rfl : d = 0 := by simpa [balanced] using h
    cases upper <;> rfl
  | cons w ws ih =>
    have hopen : opens "]" = false ∧ opens ":" = false := by decide
    have hclose : closes "]" = true ∧ closes ":" = false := by decide
    rw [balanced] at h
    rw [closedBound, depthBehind]
    by_cases hbracket : w = "]"
    · subst hbracket
      simp only [hopen, hclose, Bool.false_eq_true, if_false, if_true, Bool.and_eq_true,
        bne_iff_ne] at h ⊢
      have hdepth : (d : Int) - 1 = ((d - 1 : Nat) : Int) := by omega
      have hcolon : ("]" == ":") = false := by decide
      simp only [hdepth, ih h.2, hcolon, Bool.and_false, Bool.false_and, Bool.not_false,
        beq_self_eq_true, Bool.true_and, and_true, Bool.not_eq_true', decide_eq_false_iff_not]
      omega
    · by_cases hcolon : w = ":"
      · subst hcolon
        simp only [hopen, hclose, Bool.false_eq_true, if_false, Bool.and_eq_true] at h ⊢
        have hd : d ≠ 0 := by
          rintro rfl
          simp at h
        simp [ih h.2, hd]
      · have hb : (w == "]") = false := beq_eq_false_iff_ne.2 hbracket
        have hc : (w == ":") = false := beq_eq_false_iff_ne.2 hcolon
        simp only [hb, hc, Bool.false_and, Bool.and_false, Bool.not_false, Bool.true_and]
        split_ifs at h ⊢
        · exact_mod_cast ih h
        · rw [Bool.and_eq_true, bne_iff_ne] at h
          have hdepth : (d : Int) - 1 = ((d - 1 : Nat) : Int) := by omega
          rw [hdepth]
          exact ih h.2
        · rw [Bool.and_eq_true] at h
          exact ih h.2

theorem IsBound.isPiece {s : String} (h : IsBound s) : IsPiece s := by
  refine ⟨h.trimmed, fun off rest hopen => tokensFrom_append h.quote h.ends ?_ off⟩
  intro x _ y hy hxy
  rw [hopen y hy] at hxy
  exact absurd hxy.2 (by simp)

theorem IsBound.isValue {s : String} (h : IsBound s) : IsValue s :=
  ⟨h.isPiece, closedValue_balanced h.balanced⟩

theorem RangeOf.isRange {r : Option BitRange} (h : RangeOf IsBound r) : ∀ b ∈ r, IsRange b := by
  intro b hb
  obtain ⟨hm, hl⟩ := h b hb
  exact ⟨hm.isPiece, hl.isPiece, closedBound_balanced hm.balanced,
    closedBound_balanced hl.balanced⟩

/-! ### Reading ranges and values -/

section
variable {clean c : List UInt8}

/-- The tokens of a bound or value, which is the text that they span. -/
theorem left_piece {s : String} (hs : IsPiece s) (hopen : Opens c) (h : bytes s ++ c <:+ clean) :
    ∃ ts, left clean (bytes s ++ c) = ts ++ left clean c ∧
      ts.map Token.text = words s ∧ spanText clean ts = s := by
  have hdrop : clean.drop (clean.length - (bytes s ++ c).length) = bytes s ++ c :=
    (List.suffix_iff_eq_drop.1 h).symm
  refine ⟨tokensFrom (clean.length - (bytes s ++ c).length) 0 (bytes s), ?_,
    words_tokensFrom _ s, spanText_tokens hdrop hs.trimmed⟩
  rw [left, left, ← offset_behind h]
  exact hs.cut _ _ hopen

/-- One token of a bound. -/
theorem rangeBounds_token {d : Int} {t : Token} {lsb : Option (List Token)}
    (hend : (t.text == "]" && decide (d ≤ 0)) = false)
    (hcolon : (t.text == ":" && d == 0 && lsb.isNone) = false) (msb rest : List Token) :
    rangeBounds clean d msb lsb (t :: rest) =
      rangeBounds clean (depthBehind d t.text) (if lsb.isNone then t :: msb else msb)
        (lsb.map (t :: ·)) rest := by
  cases lsb with
  | none =>
    rw [Option.isNone_none] at hcolon
    simp only [rangeBounds, depthBehind, hend, hcolon, Bool.false_eq_true, if_false,
      Option.isNone_none, if_true, Option.map_none]
  | some lsb =>
    rw [Option.isNone_some] at hcolon
    simp only [rangeBounds, depthBehind, hend, hcolon, Bool.false_eq_true, if_false,
      Option.isNone_some, Option.map_some]

/-- The tokens of the upper bound go to that bound. -/
theorem rangeBounds_upper {d : Int} {ts : List Token}
    (h : closedBound true d (ts.map Token.text) = true) (msb rest : List Token) :
    rangeBounds clean d msb none (ts ++ rest) =
      rangeBounds clean 0 (ts.reverse ++ msb) none rest := by
  induction ts generalizing d msb with
  | nil =>
    obtain rfl : d = 0 := by simpa [closedBound] using h
    rfl
  | cons t ts ih =>
    rw [List.map_cons, closedBound, Bool.and_eq_true, Bool.and_eq_true] at h
    obtain ⟨⟨hend, hcolon⟩, hrest⟩ := h
    have hstep : rangeBounds clean d msb none (t :: (ts ++ rest)) = _ :=
      rangeBounds_token (by rwa [← Bool.not_eq_true']) (by simpa only [Bool.not_eq_true',
        Bool.true_and, Option.isNone_none, Bool.and_true] using hcolon) msb (ts ++ rest)
    rw [List.cons_append, hstep]
    simp only [Option.isNone_none, if_true, Option.map_none]
    rw [ih hrest, List.reverse_cons, List.append_assoc, List.singleton_append]

/-- The tokens of the lower bound go to that bound. -/
theorem rangeBounds_lower {d : Int} {ts : List Token}
    (h : closedBound false d (ts.map Token.text) = true) (msb lsb rest : List Token) :
    ∃ d' ≤ 0, rangeBounds clean d msb (some lsb) (ts ++ rest) =
      rangeBounds clean d' msb (some (ts.reverse ++ lsb)) rest := by
  induction ts generalizing d lsb with
  | nil => exact ⟨d, by simpa [closedBound] using h, rfl⟩
  | cons t ts ih =>
    rw [List.map_cons, closedBound, Bool.and_eq_true, Bool.and_eq_true] at h
    obtain ⟨⟨hend, -⟩, hrest⟩ := h
    obtain ⟨d', hd', hread⟩ := ih hrest (t :: lsb)
    have hstep : rangeBounds clean d msb (some lsb) (t :: (ts ++ rest)) = _ :=
      rangeBounds_token (by rwa [← Bool.not_eq_true']) (by simp) msb (ts ++ rest)
    refine ⟨d', hd', ?_⟩
    rw [List.cons_append, hstep]
    simp only [Option.isNone_some, Bool.false_eq_true, if_false, Option.map_some]
    rw [hread, List.reverse_cons, List.append_assoc, List.singleton_append]

/-- The words in front of which a value ends. -/
def endsValue (word : String) : Bool := !opens word && (closes word || word == "," || word == ";")

theorem takeValue_closed {d : Nat} {ts : List Token}
    (h : closedValue d (ts.map Token.text) = true) (rest : List Token)
    (hrest : endsValue (headText rest) = true) : takeValue d (ts ++ rest) = (ts, rest) := by
  induction ts generalizing d with
  | nil =>
    have hd : d = 0 := by simpa [closedValue] using h
    cases rest with
    | nil => rfl
    | cons t rest =>
      have ht : endsValue t.text = true := hrest
      rw [endsValue, Bool.or_assoc, Bool.and_eq_true, Bool.not_eq_true'] at ht
      cases hcloses : closes t.text with
      | true => simp [takeValue, hd, ht.1, hcloses]
      | false =>
        have hword : (t.text == "," || t.text == ";") = true := by simpa [hcloses] using ht.2
        simp only [List.nil_append, takeValue, hd, ht.1, hcloses, hword, Bool.false_eq_true,
          if_false, decide_true, Bool.and_self, if_true]
  | cons t ts ih =>
    rw [List.map_cons, closedValue] at h
    rw [List.cons_append, takeValue]
    split at h
    · rename_i hopens
      simp [hopens, ih h]
    · rename_i hopens
      split at h
      · rename_i hcloses
        rw [Bool.and_eq_true, bne_iff_ne] at h
        simp [hopens, hcloses, h.1, ih h.2]
      · rename_i hcloses
        rw [Bool.and_eq_true, Bool.or_eq_true] at h
        have hstop : ((t.text == "," || t.text == ";") && decide (d = 0)) = false := by
          rcases h.1 with hd | hw
          · rw [bne_iff_ne] at hd
            simp [hd]
          · rw [Bool.not_eq_true'] at hw
            simp [hw]
        simp only [hopens, hcloses, hstop, Bool.false_eq_true, if_false, ih h.2]

theorem opens_rangeSuffix (r : Option BitRange) (c : List UInt8) :
    Opens (bytes (rangeSuffix r) ++ (bytes " " ++ c)) := by
  cases r with
  | none => exact opens_text_append (s := " ") (by decide) c
  | some r =>
    rw [rangeSuffix, Text.bytes_append, List.append_assoc]
    exact opens_text_append (by decide) _

/-- The tokens of two bounds, with a colon between them and a bracket behind them. -/
theorem rangeBounds_closed {us vs : List Token} {colon closing : Token}
    (hupper : closedBound true 0 (us.map Token.text) = true)
    (hlower : closedBound false 0 (vs.map Token.text) = true) (hcolon : colon.text = ":")
    (hclosing : closing.text = "]") (rest : List Token) :
    rangeBounds clean 0 [] none (us ++ colon :: (vs ++ closing :: rest)) =
      .ok (⟨spanText clean us, spanText clean vs⟩, rest) := by
  have hne : (":" == "]") = false := by decide
  obtain ⟨d, hd, hsecond⟩ : ∃ d ≤ 0, rangeBounds clean 0 (us.reverse ++ []) (some [])
      (vs ++ closing :: rest) = rangeBounds clean d (us.reverse ++ []) (some (vs.reverse ++ []))
        (closing :: rest) := rangeBounds_lower hlower (us.reverse ++ []) [] _
  rw [rangeBounds_upper hupper [], rangeBounds]
  simp only [hcolon, hne, Bool.false_and, Bool.false_eq_true, if_false, beq_self_eq_true,
    Bool.true_and, Option.isNone_none, if_true, hsecond]
  rw [rangeBounds]
  simp [hclosing, hd]

theorem rangeBounds_read {r : BitRange} (hr : IsRange r)
    (h : bytes r.msb ++ (bytes ":" ++ (bytes r.lsb ++ (bytes "]" ++ c))) <:+ clean) :
    rangeBounds clean 0 [] none
      (left clean (bytes r.msb ++ (bytes ":" ++ (bytes r.lsb ++ (bytes "]" ++ c))))) =
        .ok (r, left clean c) ∧
      (left clean c).length ≤
        (left clean (bytes r.msb ++ (bytes ":" ++ (bytes r.lsb ++ (bytes "]" ++ c))))).length := by
  obtain ⟨ts, hts, htwords, hmsb⟩ := left_piece hr.msb (opens_text_append (by decide) _) h
  obtain ⟨us, hus, huwords, hlsb⟩ :=
    left_piece hr.lsb (opens_text_append (by decide) _) (behind (behind h))
  have hupper : closedBound true 0 (ts.map Token.text) = true := by
    rw [htwords]
    exact hr.upper
  have hlower : closedBound false 0 (us.map Token.text) = true := by
    rw [huwords]
    exact hr.lower
  rw [hts, left_mark (by decide) (behind h), hus,
    left_mark (s := "]") (by decide) (behind (behind (behind h)))]
  refine ⟨?_, ?_⟩
  · rw [rangeBounds_closed hupper hlower (tokenAt_text _ _ _) (tokenAt_text _ _ _), hmsb, hlsb]
  · simp only [List.length_append, List.length_cons]
    omega

/-- The range of a declaration, and nothing if it has none. -/
theorem typeAndRange_read {r : Option BitRange} {name : String} (hr : ∀ b ∈ r, IsRange b)
    (hname : isNameText name = true) (htype : r = none → name ∉ typeWords)
    (hword : left clean (bytes name ++ c) = tokenAt clean name c :: left clean c)
    (h : bytes (rangeSuffix r) ++ (bytes " " ++ (bytes name ++ c)) <:+ clean) :
    typeAndRange clean (left clean (bytes (rangeSuffix r) ++ (bytes " " ++ (bytes name ++ c)))) =
      .ok (r, left clean (bytes name ++ c)) ∧ (left clean (bytes name ++ c)).length ≤
        (left clean (bytes (rangeSuffix r) ++ (bytes " " ++ (bytes name ++ c)))).length := by
  have hblank := left_space (behind h)
  cases r with
  | none =>
    have hbracket : (name == "[") = false := name_ne hname (by decide)
    have hempty : bytes (rangeSuffix none) = [] := rfl
    rw [hempty, List.nil_append, hblank]
    refine ⟨?_, Nat.le_refl _⟩
    rw [typeAndRange, hword, List.dropWhile_cons_of_neg (by simp [htype rfl]), range]
    simp [hbracket]
  | some b =>
    have htext : bytes (rangeSuffix (some b)) ++ (bytes " " ++ (bytes name ++ c)) = bytes " " ++
        (bytes "[" ++ (bytes b.msb ++ (bytes ":" ++ (bytes b.lsb ++ (bytes "]" ++
          (bytes " " ++ (bytes name ++ c))))))) := by
      simp only [rangeSuffix, BitRange.text, Text.bytes_append, List.append_assoc]
    rw [htext] at h ⊢
    obtain ⟨hread, hle⟩ := rangeBounds_read (hr b rfl) (behind (behind h))
    rw [hblank] at hread hle
    rw [left_space h, left_mark (by decide) (behind h)]
    refine ⟨?_, Nat.le_succ_of_le hle⟩
    rw [typeAndRange, List.dropWhile_cons_of_neg (by rw [tokenAt_text]; decide), range]
    simp only [tokenAt_text, beq_self_eq_true, if_true, hread]
    rfl

end

end TaskLoom.Source
