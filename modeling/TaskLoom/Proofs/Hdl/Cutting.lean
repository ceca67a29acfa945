import TaskLoom.Hdl.Source
import TaskLoom.Proofs.Hdl.Blanking
import TaskLoom.Proofs.Text.Bytes
import Mathlib.Data.List.Infix
import Mathlib.Data.List.TakeWhile

/-!
# Cutting into tokens, piece by piece

The tokens of two pieces that stand next to each other are those of the first one and those of the
second one, unless a token goes on across the border (`tokensFrom_append`): a word in a byte that
continues words, or an escaped identifier, which only a blank ends (`Settled`).  The tokens of a
text without blanks at its ends span that text (`spanText_tokens`).
-/

namespace TaskLoom.Source

/-- The text does not prolong a word that stands before it. -/
def Opens (rest : List UInt8) : Prop := ∀ y ∈ rest.head?, continuesWord y = false

/-- Every backslash is followed by a blank somewhere: the text does not end in an escaped
identifier. -/
def Settled (l : List UInt8) : Prop :=
  ∀ q ∈ l.tails, q.head? = some (ascii '\\') → q.any isSpace = true

/-- A word could go on behind this byte. -/
def joins (b : UInt8) : Bool := startsWord b || continuesWord b

theorem Opens.append {l rest : List UInt8} (hl : Opens l) (h : Opens rest) : Opens (l ++ rest) := by
  cases l with
  | nil => exact h
  | cons b l => exact hl

theorem Opens.append_left {l : List UInt8} (h : Opens l) (hne : l ≠ []) (rest : List UInt8) :
    Opens (l ++ rest) := by
  intro y hy
  rw [List.head?_append_of_ne_nil _ hne] at hy
  exact h y hy

theorem Settled.suffix {l r : List UInt8} (h : Settled l) (hr : r <:+ l) : Settled r := by
  intro q hq
  exact h q ((List.mem_tails q l).2 (((List.mem_tails q r).1 hq).trans hr))

/-- The blank behind a backslash. -/
theorem Settled.exists_space {l : List UInt8} (h : Settled (ascii '\\' :: l)) :
    ∃ x ∈ l, isSpace x = true := by
  have hany := h _ ((List.mem_tails _ _).2 (List.suffix_refl _)) rfl
  rw [List.any_cons, show isSpace (ascii '\\') = false by decide, Bool.false_or] at hany
  exact List.any_eq_true.1 hany

theorem settled_of_not_mem {l : List UInt8} (h : ascii '\\' ∉ l) : Settled l := by
  intro q hq hhead
  exact absurd (((List.mem_tails q l).1 hq).subset (List.mem_of_head? hhead)) h

theorem settled_append_space {b : UInt8} (h : isSpace b = true) (l : List UInt8) :
    Settled (l ++ [b]) := by
  intro q hq hhead
  obtain ⟨p, hp⟩ := (List.mem_tails q _).1 hq
  have hne : q ≠ [] := by
    rintro rfl
    cases hhead
  have hlast : q.getLast? = some b := by
    rw [← List.getLast?_append_of_ne_nil p hne, hp, List.getLast?_concat]
  exact List.any_eq_true.2 ⟨b, List.mem_of_mem_getLast? hlast, h⟩

theorem not_space_of_startsWord {b : UInt8} (h : startsWord b = true) : isSpace b = false := by
  by_contra hs
  simp only [isSpace, Bool.not_eq_false, Bool.or_eq_true, beq_iff_eq] at hs
  rcases hs with ((rfl | rfl) | rfl) | rfl <;> exact absurd h (by decide)

theorem quotes_of_startsWord {b : UInt8} (h : startsWord b = true) :
    b ≠ ascii '"' ∧ b ≠ ascii '\\' := by
  constructor
  all_goals
    rintro rfl
    exact absurd h (by decide)

theorem tokensFrom_skip (off : Nat) (l rest : List UInt8) :
    tokensFrom off l.length (l ++ rest) = tokensFrom (off + l.length) 0 rest := by
  induction l generalizing off with
  | nil => rfl
  | cons b l ih =>
    rw [List.length_cons, List.cons_append, tokensFrom, ih]
    congr 1
    omega

theorem tokensFrom_space {b : UInt8} (h : isSpace b = true) (off : Nat) (rest : List UInt8) :
    tokensFrom off 0 (b :: rest) = tokensFrom (off + 1) 0 rest := by
  rw [tokensFrom, if_pos h]

/-- The first token of a text, if it reaches to the end of `l`. -/
theorem tokensFrom_token {b : UInt8} {l rest : List UInt8} (hspace : isSpace b = false)
    (h : tokenRest b (l ++ rest) = l.length) (off : Nat) :
    tokensFrom off 0 (b :: (l ++ rest)) =
      ⟨b :: l, off⟩ :: tokensFrom (off + (b :: l).length) 0 rest := by
  rw [tokensFrom, if_neg (by simp [hspace]), h, List.take_left, tokensFrom_skip, List.length_cons]
  congr 2
  omega

theorem tokensFrom_word {b : UInt8} {l rest : List UInt8} (hb : startsWord b = true)
    (hl : ∀ x ∈ l, continuesWord x = true) (hrest : Opens rest) (off : Nat) :
    tokensFrom off 0 (b :: (l ++ rest)) =
      ⟨b :: l, off⟩ :: tokensFrom (off + (b :: l).length) 0 rest := by
  obtain ⟨hquote, hslash⟩ := quotes_of_startsWord hb
  refine tokensFrom_token (not_space_of_startsWord hb) ?_ off
  have hstop : rest.takeWhile continuesWord = [] := by
    cases rest with
    | nil => rfl
    | cons y rest => rw [List.takeWhile_cons_of_neg (by simp [hrest y rfl])]
  rw [tokenRest, if_neg (by simpa using hquote), if_neg (by simpa using hslash), if_pos hb,
    List.takeWhile_append_of_pos hl, hstop, List.append_nil]

theorem tokensFrom_mark {b : UInt8} (hspace : isSpace b = false) (hquote : b ≠ ascii '"')
    (hslash : b ≠ ascii '\\') (hword : startsWord b = false) (off : Nat) (rest : List UInt8) :
    tokensFrom off 0 (b :: rest) = ⟨[b], off⟩ :: tokensFrom (off + 1) 0 rest := by
  refine tokensFrom_token (l := []) hspace ?_ off
  rw [tokenRest, if_neg (by simpa using hquote), if_neg (by simpa using hslash),
    if_neg (by simp [hword]), List.length_nil]

theorem quotedRest_quoted {l : List UInt8} (h : Quotable l) (rest : List UInt8) :
    quotedRest (l ++ ascii '"' :: rest) = l.length + 1 := by
  induction h with
  | nil => cases rest <;> simp [quotedRest]
  | @plain b l hquote hslash _ _ ih =>
    rw [List.cons_append]
    cases hr : l ++ ascii '"' :: rest with
    | nil => simp at hr
    | cons c cs =>
      rw [hr] at ih
      simp [quotedRest, hquote, hslash, ih]
      omega
  | @escaped b l _ ih =>
    have hslash : (ascii '\\' == ascii '"') = false := by decide
    simp only [List.cons_append, quotedRest, hslash, ih, List.length_cons]
    simp
    omega

theorem tokensFrom_quoted {l : List UInt8} (h : Quotable l) (off : Nat) (rest : List UInt8) :
    tokensFrom off 0 (ascii '"' :: (l ++ [ascii '"']) ++ rest) =
      ⟨ascii '"' :: (l ++ [ascii '"']), off⟩ :: tokensFrom (off + (l.length + 2)) 0 rest := by
  rw [List.cons_append]
  rw [tokensFrom_token (by decide) ?_ off]
  · simp
  · rw [tokenRest, if_pos (by simp), List.append_assoc, List.singleton_append, quotedRest_quoted h]
    simp

/-! ### Pieces without strings -/

theorem tokenRest_unquoted {b : UInt8} (hquote : b ≠ ascii '"') (l : List UInt8) :
    tokenRest b l = if b = ascii '\\' then (l.takeWhile (!isSpace ·)).length
      else if startsWord b then (l.takeWhile continuesWord).length else 0 := by
  simp [tokenRest, hquote]

/-- A token of the first piece ends with that piece at the latest. -/
theorem tokenRest_append {b : UInt8} {l rest : List UInt8} (hquote : b ≠ ascii '"')
    (hslash : b = ascii '\\' → ∃ x ∈ l, isSpace x = true)
    (hjoin : ∀ x ∈ (b :: l).getLast?, ∀ y ∈ rest.head?,
      ¬ (joins x = true ∧ continuesWord y = true)) :
    tokenRest b (l ++ rest) = tokenRest b l := by
  rw [tokenRest_unquoted hquote, tokenRest_unquoted hquote]
  split
  · rename_i hb
    obtain ⟨x, hx, hspace⟩ := hslash hb
    rw [List.takeWhile_append, if_neg]
    intro hall
    have hkept := List.takeWhile_eq_self_iff.1 ((List.takeWhile_prefix _).eq_of_length hall)
    simpa [hspace] using hkept x hx
  · split
    · rename_i hb
      rw [List.takeWhile_append]
      split
      · rename_i hall
        -- the whole piece is one word, which the rest must not prolong
        have hkept := List.takeWhile_eq_self_iff.1 ((List.takeWhile_prefix _).eq_of_length hall)
        have hlast : ∃ x ∈ (b :: l).getLast?, joins x = true := by
          rcases List.eq_nil_or_concat l with rfl | ⟨l', c, rfl⟩
          · exact ⟨b, rfl, by simp [joins, hb]⟩
          · refine ⟨c, ?_, by simp [joins, hkept c (by simp)]⟩
            rw [List.concat_eq_append, ← List.cons_append]
            exact List.getLast?_concat
        obtain ⟨x, hx, hxj⟩ := hlast
        have hstop : rest.takeWhile continuesWord = [] := by
          cases rest with
          | nil => rfl
          | cons y rest => exact List.takeWhile_cons_of_neg fun hy => hjoin x hx y rfl ⟨hxj, hy⟩
        rw [hstop, List.append_nil, hall]
      · rfl
    · rfl

theorem quotedRest_le (l : List UInt8) : quotedRest l ≤ l.length := by
  induction l using quotedRest.induct with
  | case1 => exact Nat.le_refl 0
  | case2 b => exact Nat.le_refl 1
  | case3 b c bs hquote =>
    rw [quotedRest, if_pos hquote, List.length_cons]
    omega
  | case4 b c bs hquote hslash ih =>
    rw [quotedRest, if_neg hquote, if_pos hslash, List.length_cons, List.length_cons]
    omega
  | case5 b c bs hquote hslash ih =>
    rw [quotedRest, if_neg hquote, if_neg hslash, List.length_cons]
    omega

/-- A token ends with the source at the latest. -/
theorem tokenRest_le (b : UInt8) (l : List UInt8) : tokenRest b l ≤ l.length := by
  unfold tokenRest
  split_ifs
  · exact quotedRest_le l
  · exact (List.takeWhile_prefix _).length_le
  · exact (List.takeWhile_prefix _).length_le
  · exact Nat.zero_le _

/-- The first token of a piece, and what is left of the piece. -/
theorem tokensFrom_cons {b : UInt8} {l : List UInt8} (hspace : isSpace b = false) (off : Nat) :
    tokensFrom off 0 (b :: l) = ⟨b :: l.take (tokenRest b l), off⟩ ::
      tokensFrom (off + 1 + tokenRest b l) 0 (l.drop (tokenRest b l)) := by
  have hsplit := tokensFrom_skip (off + 1) (l.take (tokenRest b l)) (l.drop (tokenRest b l))
  rw [List.take_append_drop, List.length_take, Nat.min_eq_left (tokenRest_le b l)] at hsplit
  rw [tokensFrom, if_neg (by simp [hspace]), hsplit]

/-- The tokens of two pieces, of which the first one has no strings. -/
theorem tokensFrom_append {l rest : List UInt8} (hquote : ascii '"' ∉ l) (hsettled : Settled l)
    (hjoin : ∀ x ∈ l.getLast?, ∀ y ∈ rest.head?, ¬ (joins x = true ∧ continuesWord y = true))
    (off : Nat) :
    tokensFrom off 0 (l ++ rest) = tokensFrom off 0 l ++ tokensFrom (off + l.length) 0 rest := by
  induction hn : l.length using Nat.strong_induction_on generalizing l off with
  | _ n ih =>
    cases l with
    | nil =>
      subst hn
      rfl
    | cons b l =>
      rw [List.mem_cons, not_or] at hquote
      subst hn
      have hlater (r : List UInt8) (hr : r <:+ l) (off : Nat) : tokensFrom off 0 (r ++ rest) =
          tokensFrom off 0 r ++ tokensFrom (off + r.length) 0 rest := by
        have hlen : r.length < (b :: l).length := Nat.lt_succ_of_le hr.length_le
        refine ih r.length hlen (fun hq => hquote.2 (hr.subset hq))
          (hsettled.suffix (hr.trans (List.suffix_cons b l))) (fun x hx => hjoin x ?_) off rfl
        obtain ⟨p, rfl⟩ := hr
        rw [← List.cons_append]
        exact List.mem_getLast?_append_of_mem_getLast? hx
      cases hspace : isSpace b with
      | true =>
        rw [List.cons_append, tokensFrom_space hspace, tokensFrom_space hspace,
          hlater l (List.suffix_refl l), List.length_cons]
        congr 2
        omega
      | false =>
        have hrest : tokenRest b (l ++ rest) = tokenRest b l := by
          refine tokenRest_append (Ne.symm hquote.1) ?_ hjoin
          rintro rfl
          exact hsettled.exists_space
        have hle := tokenRest_le b l
        rw [List.cons_append, tokensFrom_cons hspace,
          tokensFrom_cons hspace, hrest, List.take_append_of_le_length hle,
          List.drop_append_of_le_length hle, hlater _ (List.drop_suffix _ _), List.length_drop,
          List.cons_append, List.length_cons]
        congr 3
        omega

/-- The last token of a piece that does not end in a blank reaches to its end. -/
theorem exists_last_token {l : List UInt8} (hne : l ≠ [])
    (hlast : ∀ b ∈ l.getLast?, isSpace b = false) (off : Nat) :
    ∃ ts t, tokensFrom off 0 l = ts ++ [t] ∧ t.offset + t.bytes.length = off + l.length := by
  induction hn : l.length using Nat.strong_induction_on generalizing l off with
  | _ n ih =>
    cases l with
    | nil => exact absurd rfl hne
    | cons b l =>
      subst hn
      have hlater (r : List UInt8) (hr : r <:+ l) (hrne : r ≠ []) (off : Nat) :
          ∃ ts t, tokensFrom off 0 r = ts ++ [t] ∧ t.offset + t.bytes.length = off + r.length := by
        have hlen : r.length < (b :: l).length := Nat.lt_succ_of_le hr.length_le
        refine ih r.length hlen hrne (fun x hx => hlast x ?_) off rfl
        obtain ⟨p, rfl⟩ := hr
        rw [← List.cons_append]
        exact List.mem_getLast?_append_of_mem_getLast? hx
      cases hspace : isSpace b with
      | true =>
        have hlne : l ≠ [] := by
          rintro rfl
          exact absurd (hlast b rfl) (by simp [hspace])
        obtain ⟨ts, t, hts, hend⟩ := hlater l (List.suffix_refl l) hlne (off + 1)
        refine ⟨ts, t, by rw [tokensFrom_space hspace, hts], ?_⟩
        rw [hend, List.length_cons]
        omega
      | false =>
        have hle := tokenRest_le b l
        rw [tokensFrom_cons hspace]
        by_cases hdrop : l.drop (tokenRest b l) = []
        · have hlen : tokenRest b l = l.length :=
            Nat.le_antisymm hle (List.drop_eq_nil_iff.1 hdrop)
          refine ⟨[], _, by rw [hdrop]; rfl, ?_⟩
          simp [hlen]
        · obtain ⟨ts, t, hts, hend⟩ :=
            hlater _ (List.drop_suffix _ _) hdrop (off + 1 + tokenRest b l)
          refine ⟨_ :: ts, t, by rw [hts]; rfl, ?_⟩
          rw [hend, List.length_drop, List.length_cons]
          omega

/-- The bytes at the ends of a text without blanks at its ends separate no tokens. -/
theorem ends_not_space {s : String} (h : Text.trim s = s) :
    (∀ b ∈ (Text.bytes s).head?, isSpace b = false) ∧
      ∀ b ∈ (Text.bytes s).getLast?, isSpace b = false := by
  obtain ⟨hfirst, hlast⟩ := Text.ends_of_trim h
  have hspace {b : UInt8} (hb : isSpace b = true) : b.toNat < 128 ∧
      ∀ c : Char, c.toNat = b.toNat → Text.isBlank c = true := by
    simp only [isSpace, Bool.or_eq_true, beq_iff_eq] at hb
    rcases hb with ((rfl | rfl) | rfl) | rfl
    all_goals
      refine ⟨by decide, fun c hc => ?_⟩
      simp [Text.isBlank, hc]
  constructor
  · intro b hb
    by_contra hs
    obtain ⟨hlt, hblank⟩ := hspace (by simpa using hs)
    obtain ⟨c, hc, hcb⟩ := Text.head_char hb hlt
    exact absurd (hblank c hcb) (by simp [hfirst c hc])
  · intro b hb
    by_contra hs
    obtain ⟨hlt, hblank⟩ := hspace (by simpa using hs)
    obtain ⟨c, hc, hcb⟩ := Text.last_char hb hlt
    exact absurd (hblank c hcb) (by simp [hlast c hc])

/-- The tokens of a trimmed text span that text. -/
theorem spanText_tokens {clean rest : List UInt8} {off : Nat} {s : String}
    (hat : clean.drop off = Text.bytes s ++ rest) (htrim : Text.trim s = s) :
    spanText clean (tokensFrom off 0 (Text.bytes s)) = s := by
  obtain ⟨hfirst, hlast⟩ := ends_not_space htrim
  cases hs : Text.bytes s with
  | nil =>
    have hempty : s = "" := Text.bytes_inj hs
    rw [hempty]
    rfl
  | cons b l =>
    rw [hs] at hfirst hlast hat
    obtain ⟨ts, t, hts, hend⟩ := exists_last_token (List.cons_ne_nil b l) hlast off
    have hhead : ∃ u, (tokensFrom off 0 (b :: l)).head? = some u ∧ u.offset = off := by
      rw [tokensFrom, if_neg (by simp [hfirst b rfl])]
      exact ⟨_, rfl, rfl⟩
    obtain ⟨u, hu, huoff⟩ := hhead
    have hslice : (clean.drop off).take (off + (b :: l).length - off) = Text.bytes s := by
      rw [hat, Nat.add_sub_cancel_left, List.take_left, hs]
    rw [spanText, hu, hts, List.getLast?_concat]
    simp only [huoff, hend, hslice, Text.ofBytes_bytes, htrim]

end TaskLoom.Source
