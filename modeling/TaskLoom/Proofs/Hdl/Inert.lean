import TaskLoom.Proofs.Hdl.Plain

/-!
# Text without effect in a body

A reader of sources skips most of the body of a module.  `Inert l`: wherever the piece `l` stands in
a body, it is skipped, whatever stands behind it.  Inert pieces are put together from smaller ones:
a `Phrase` could be prolonged by a word that stands right behind it, and a `Firm` piece could not.
-/

namespace TaskLoom.Source

/-- The piece is cut into harmless tokens, if no word goes on behind it. -/
def Skips (l : List UInt8) : Prop :=
  ∀ off rest, Opens rest → ∃ ts,
    tokensFrom off 0 (l ++ rest) = ts ++ tokensFrom (off + l.length) 0 rest ∧ Harmless ts

/-- The piece is cut into harmless tokens, whatever stands behind it. -/
def Passes (l : List UInt8) : Prop :=
  ∀ off rest, ∃ ts,
    tokensFrom off 0 (l ++ rest) = ts ++ tokensFrom (off + l.length) 0 rest ∧ Harmless ts

theorem Harmless.append {ts us : List Token} (ht : Harmless ts) (hu : Harmless us) :
    Harmless (ts ++ us) := by
  intro t hmem
  rcases List.mem_append.1 hmem with hmem | hmem
  · exact ht t hmem
  · exact hu t hmem

theorem Passes.skips {l : List UInt8} (h : Passes l) : Skips l := fun off rest _ => h off rest

theorem Passes.nil : Passes [] := fun off rest => ⟨[], rfl, by simp [Harmless]⟩

/-- The tokens of two pieces one after the other. -/
theorem harmless_append {l r rest : List UInt8} {off : Nat} {ts us : List Token}
    (hl : tokensFrom off 0 (l ++ (r ++ rest)) = ts ++ tokensFrom (off + l.length) 0 (r ++ rest))
    (hr : tokensFrom (off + l.length) 0 (r ++ rest) =
      us ++ tokensFrom (off + l.length + r.length) 0 rest)
    (ht : Harmless ts) (hu : Harmless us) : ∃ vs,
    tokensFrom off 0 (l ++ r ++ rest) = vs ++ tokensFrom (off + (l ++ r).length) 0 rest ∧
      Harmless vs := by
  refine ⟨ts ++ us, ?_, ht.append hu⟩
  rw [List.append_assoc, hl, hr, List.append_assoc, List.length_append, Nat.add_assoc]

theorem Passes.append {l r : List UInt8} (hl : Passes l) (hr : Passes r) : Passes (l ++ r) := by
  intro off rest
  obtain ⟨ts, hts, ht⟩ := hl off (r ++ rest)
  obtain ⟨us, hus, hu⟩ := hr (off + l.length) rest
  exact harmless_append hts hus ht hu

theorem Passes.append_skips {l r : List UInt8} (hl : Passes l) (hr : Skips r) :
    Skips (l ++ r) := by
  intro off rest hrest
  obtain ⟨ts, hts, ht⟩ := hl off (r ++ rest)
  obtain ⟨us, hus, hu⟩ := hr (off + l.length) rest hrest
  exact harmless_append hts hus ht hu

theorem Skips.append {l r : List UInt8} (hl : Skips l) (hr : Skips r) (hopen : Opens r) :
    Skips (l ++ r) := by
  intro off rest hrest
  obtain ⟨ts, hts, ht⟩ := hl off (r ++ rest) (hopen.append hrest)
  obtain ⟨us, hus, hu⟩ := hr (off + l.length) rest hrest
  exact harmless_append hts hus ht hu

theorem Skips.append_passes {l r : List UInt8} (hl : Skips l) (hr : Passes r) (hopen : Opens r)
    (hne : r ≠ []) : Passes (l ++ r) := by
  intro off rest
  obtain ⟨ts, hts, ht⟩ := hl off (r ++ rest) (hopen.append_left hne rest)
  obtain ⟨us, hus, hu⟩ := hr (off + l.length) rest
  exact harmless_append hts hus ht hu

/-- The bytes of the tokens do not depend on where the piece stands. -/
theorem bytes_tokensFrom (off off' k : Nat) (l : List UInt8) :
    (tokensFrom off k l).map Token.bytes = (tokensFrom off' k l).map Token.bytes := by
  induction l generalizing off off' k with
  | nil => simp [tokensFrom]
  | cons b l ih =>
    cases k with
    | succ k => exact ih (off + 1) (off' + 1) k
    | zero =>
      unfold tokensFrom
      split
      · exact ih (off + 1) (off' + 1) 0
      · rw [List.map_cons, List.map_cons, ih (off + 1) (off' + 1)]

theorem Harmless.moved {l : List UInt8} {off : Nat} (h : Harmless (tokensFrom off 0 l))
    (off' : Nat) : Harmless (tokensFrom off' 0 l) := by
  intro t ht
  have hmem : t.bytes ∈ (tokensFrom off 0 l).map Token.bytes := by
    rw [bytes_tokensFrom off off']
    exact List.mem_map_of_mem ht
  obtain ⟨u, hu, hbytes⟩ := List.mem_map.1 hmem
  have htext : t.text = u.text := by rw [Token.text, Token.text, hbytes]
  exact htext ▸ h u hu

/-- The bytes of a token are no blanks, strings apart. -/
theorem not_space_of_mem_token {b x : UInt8} {l : List UInt8} (hquote : b ≠ ascii '"')
    (hx : x ∈ l.take (tokenRest b l)) : isSpace x = false := by
  have hword (y : UInt8) (hy : continuesWord y = true) : isSpace y = false := by
    by_contra hs
    simp only [isSpace, Bool.not_eq_false, Bool.or_eq_true, beq_iff_eq] at hs
    rcases hs with ((rfl | rfl) | rfl) | rfl <;> exact absurd hy (by decide)
  have htake (p : UInt8 → Bool) : l.take (l.takeWhile p).length = l.takeWhile p :=
    (List.prefix_iff_eq_take.1 (List.takeWhile_prefix p)).symm
  rw [tokenRest_unquoted hquote] at hx
  split at hx
  · rw [htake] at hx
    simpa using List.mem_takeWhile_imp hx
  · split at hx
    · rw [htake] at hx
      exact hword x (List.mem_takeWhile_imp hx)
    · simp at hx

/-- What is left of harmless text behind its first blank is harmless. -/
theorem Harmless.dropWhile {l : List UInt8} (hquote : ascii '"' ∉ l) {off : Nat}
    (h : Harmless (tokensFrom off 0 l)) :
    Harmless (tokensFrom off 0 (l.dropWhile (!isSpace ·))) := by
  induction hn : l.length using Nat.strong_induction_on generalizing l off with
  | _ n ih =>
    cases l with
    | nil => exact h
    | cons b l =>
      rw [List.mem_cons, not_or] at hquote
      subst hn
      cases hspace : isSpace b with
      | true => rwa [List.dropWhile_cons_of_neg (by simp [hspace])]
      | false =>
        rw [tokensFrom_cons hspace] at h
        have hdrop : (b :: l).dropWhile (!isSpace ·) =
            (l.drop (tokenRest b l)).dropWhile (!isSpace ·) := by
          rw [List.dropWhile_cons_of_pos (by simp [hspace])]
          conv_lhs => rw [← List.take_append_drop (tokenRest b l) l]
          refine List.dropWhile_append_of_pos fun x hx => ?_
          simp [not_space_of_mem_token (Ne.symm hquote.1) hx]
        rw [hdrop]
        have htail : Harmless (tokensFrom (off + 1 + tokenRest b l) 0 (l.drop (tokenRest b l))) :=
          fun t ht => h t (List.mem_cons_of_mem _ ht)
        refine (ih (l.drop (tokenRest b l)).length ?_ (fun hq => hquote.2 (List.mem_of_mem_drop hq))
          htail rfl).moved off
        rw [List.length_drop, List.length_cons]
        omega

/-- An escaped identifier is none of the words of a body. -/
theorem not_bodyWord_of_backslash {t : Token} {l : List UInt8} (h : t.bytes = ascii '\\' :: l) :
    t.text ∉ bodyWords := by
  intro hword
  have hfirst : ∀ w ∈ bodyWords, w.toList.head?.any (·.toNat == (ascii '\\').toNat) = false := by
    decide
  obtain ⟨c, hc, hcode⟩ := Text.head_ofBytes (b := ascii '\\') (by decide) l
  rw [Token.text, h] at hword
  have hno := hfirst _ hword
  simp [hc, hcode] at hno

/-- Harmless pieces are harmless together, even if an escaped identifier goes on across the
border. -/
theorem Harmless.tokens_append {l rest : List UInt8} (hquote : ascii '"' ∉ l)
    (hquote' : ascii '"' ∉ rest)
    (hjoin : ∀ x ∈ l.getLast?, ∀ y ∈ rest.head?, ¬ (joins x = true ∧ continuesWord y = true))
    {off : Nat} (hl : Harmless (tokensFrom off 0 l)) (hr : Harmless (tokens rest)) :
    Harmless (tokensFrom off 0 (l ++ rest)) := by
  induction hn : l.length using Nat.strong_induction_on generalizing l off with
  | _ n ih =>
    cases l with
    | nil => exact hr.moved off
    | cons b l =>
      rw [List.mem_cons, not_or] at hquote
      subst hn
      have hlater (r : List UInt8) (hsuffix : r <:+ l) (off : Nat)
          (h : Harmless (tokensFrom off 0 r)) : Harmless (tokensFrom off 0 (r ++ rest)) := by
        have hlen : r.length < (b :: l).length := Nat.lt_succ_of_le hsuffix.length_le
        refine ih r.length hlen (fun hq => hquote.2 (hsuffix.subset hq)) (fun x hx => hjoin x ?_)
          h rfl
        obtain ⟨p, rfl⟩ := hsuffix
        rw [← List.cons_append]
        exact List.mem_getLast?_append_of_mem_getLast? hx
      cases hspace : isSpace b with
      | true =>
        rw [tokensFrom_space hspace] at hl
        rw [List.cons_append, tokensFrom_space hspace]
        exact hlater l (List.suffix_refl l) _ hl
      | false =>
        rw [tokensFrom_cons hspace] at hl
        rw [List.cons_append, tokensFrom_cons hspace]
        by_cases hopen : b = ascii '\\' ∧ ∀ x ∈ l, isSpace x = false
        · -- the identifier takes in the rest up to its first blank
          obtain ⟨rfl, hl'⟩ := hopen
          have hrest : (l ++ rest).drop (tokenRest (ascii '\\') (l ++ rest)) =
              rest.dropWhile (!isSpace ·) := by
            have hall : ∀ x ∈ l, (!isSpace x) = true := fun x hx => by simp [hl' x hx]
            have hdrop (r : List UInt8) : r.drop (r.takeWhile (!isSpace ·)).length =
                r.dropWhile (!isSpace ·) := by
              have hsplit : (r.takeWhile (!isSpace ·) ++ r.dropWhile (!isSpace ·)).drop
                  (r.takeWhile (!isSpace ·)).length = r.dropWhile (!isSpace ·) := List.drop_left
              rwa [List.takeWhile_append_dropWhile] at hsplit
            rw [tokenRest_unquoted (by decide), if_pos rfl, hdrop,
              List.dropWhile_append_of_pos hall]
          intro t ht
          rcases List.mem_cons.1 ht with rfl | ht
          · exact not_bodyWord_of_backslash rfl
          · rw [hrest] at ht
            exact (Harmless.dropWhile hquote' hr).moved _ t ht
        · have hsame : tokenRest b (l ++ rest) = tokenRest b l := by
            refine tokenRest_append (Ne.symm hquote.1) (fun hb => ?_) hjoin
            by_contra hno
            refine hopen ⟨hb, fun x hx => ?_⟩
            by_contra hs
            exact hno ⟨x, hx, by simpa using hs⟩
          have hle := tokenRest_le b l
          rw [hsame, List.take_append_of_le_length hle, List.drop_append_of_le_length hle]
          intro t ht
          rcases List.mem_cons.1 ht with rfl | ht
          · exact hl _ List.mem_cons_self
          · refine hlater _ (List.drop_suffix _ _) _ (fun u hu => ?_) t ht
            exact hl u (List.mem_cons_of_mem _ hu)

/-- Text without strings and with harmless tokens. -/
structure Bland (l : List UInt8) : Prop where
  quote : ascii '"' ∉ l
  harmless : Harmless (tokens l)

theorem Bland.append_opens {l r : List UInt8} (hl : Bland l) (hr : Bland r) (hopen : Opens r) :
    Bland (l ++ r) := by
  refine ⟨by simp [hl.quote, hr.quote], ?_⟩
  refine Harmless.tokens_append hl.quote hr.quote (fun x _ y hy hxy => ?_) hl.harmless hr.harmless
  simp [hopen y hy] at hxy

theorem Bland.append_ended {l r : List UInt8} (hl : Bland l)
    (hlast : ∀ x ∈ l.getLast?, joins x = false) (hr : Bland r) : Bland (l ++ r) := by
  refine ⟨by simp [hl.quote, hr.quote], ?_⟩
  refine Harmless.tokens_append hl.quote hr.quote (fun x hx y _ hxy => ?_) hl.harmless hr.harmless
  simp [hlast x hx] at hxy

theorem skips_of_harmless {l : List UInt8} (hquote : ascii '"' ∉ l) (hsettled : Settled l)
    (h : Harmless (tokens l)) : Skips l := by
  intro off rest hrest
  refine ⟨_, tokensFrom_append hquote hsettled (fun x _ y hy hxy => ?_) off, h.moved off⟩
  rw [hrest y hy] at hxy
  exact absurd hxy.2 (by simp)

theorem passes_of_harmless {l : List UInt8} (hquote : ascii '"' ∉ l) (hsettled : Settled l)
    (hlast : ∀ x ∈ l.getLast?, joins x = false) (h : Harmless (tokens l)) : Passes l := by
  intro off rest
  refine ⟨_, tokensFrom_append hquote hsettled (fun x hx y _ hxy => ?_) off, h.moved off⟩
  rw [hlast x hx] at hxy
  exact absurd hxy.1 (by simp)

theorem passes_blank {l : List UInt8} (h : ∀ b ∈ l, isSpace b = true) : Passes l := by
  induction l with
  | nil => exact .nil
  | cons b l ih =>
    intro off rest
    obtain ⟨ts, hts, ht⟩ := ih (fun b' hb' => h b' (List.mem_cons_of_mem _ hb')) (off + 1) rest
    refine ⟨ts, ?_, ht⟩
    rw [List.cons_append, tokensFrom_space (h b List.mem_cons_self), hts, List.length_cons]
    congr 2
    omega

/-! ### Pieces that are not blanked out -/

/-- The piece stays as it is when the source is blanked out. -/
structure Kept (l : List UInt8) : Prop where
  safe : Safe l
  erases : Erases l l

/-- Neither strings nor directives nor comment marks stand in the piece. -/
structure Unmarked (l : List UInt8) : Prop where
  quote : ascii '"' ∉ l
  tick : backtick ∉ l
  marks : l.IsChain NoMark

theorem Unmarked.erases {l : List UInt8} (h : Unmarked l) : Erases l l :=
  erases_self h.quote h.tick h.marks

theorem Unmarked.append {l r : List UInt8} (hl : Unmarked l) (hr : Unmarked r)
    (h : ∀ x ∈ l.getLast?, ∀ y ∈ r.head?, NoMark x y) : Unmarked (l ++ r) where
  quote := by simp [hl.quote, hr.quote]
  tick := by simp [hl.tick, hr.tick]
  marks := List.isChain_append.2 ⟨hl.marks, hr.marks, h⟩

theorem Kept.nil : Kept [] := ⟨by simp [Safe], .nil⟩

theorem Kept.append {l r : List UInt8} (hl : Kept l) (hr : Kept r) : Kept (l ++ r) :=
  ⟨hl.safe.append hr.safe, hl.erases.append hr.erases hr.safe⟩

/-- A byte that is part of no string, directive, comment mark or attribute. -/
def isOrdinary (b : UInt8) : Bool :=
  b != ascii '"' && b != backtick && b != ascii '/' && b != ascii '*'

theorem unmarked_of_ordinary {l : List UInt8} (h : ∀ b ∈ l, isOrdinary b = true) :
    Unmarked l := by
  have hne (c : UInt8) (hc : isOrdinary c = false) : c ∉ l := by
    intro hmem
    rw [h c hmem] at hc
    cases hc
  have hslash : ascii '/' ∉ l := hne _ (by decide)
  have hstar : ascii '*' ∉ l := hne _ (by decide)
  refine ⟨hne _ (by decide), hne _ (by decide), ?_⟩
  refine List.Pairwise.isChain (List.pairwise_of_forall_mem_list fun x hx y hy => ⟨?_, ?_⟩)
  · exact fun hxy => hslash (hxy.1 ▸ hx)
  · exact fun hxy => hstar (hxy.2 ▸ hy)

theorem kept_of_ordinary {l : List UInt8} (h : ∀ b ∈ l, isOrdinary b = true) : Kept l := by
  refine ⟨fun y hy => ⟨?_, ?_⟩, (unmarked_of_ordinary h).erases⟩
  all_goals
    rintro rfl
    exact absurd (h _ (List.mem_of_head? hy)) (by decide)

/-! ### Phrases -/

/-- A piece of ordinary text with harmless tokens, if no word goes on behind it. -/
structure Phrase (l : List UInt8) : Prop extends Kept l where
  skips : Skips l

/-- A piece of ordinary text with harmless tokens, whatever stands behind it. -/
structure Firm (l : List UInt8) : Prop extends Kept l where
  passes : Passes l

/-- A firm piece that ends every word before it. -/
structure Separator (l : List UInt8) : Prop extends Firm l where
  opens : Opens l
  ne_nil : l ≠ []

/-- A piece without effect in a body. -/
structure Inert (l : List UInt8) : Prop where
  safe : Safe l
  erases : ∃ l', Erases l l' ∧ Passes l'

theorem Firm.phrase {l : List UInt8} (h : Firm l) : Phrase l := ⟨h.toKept, h.passes.skips⟩

theorem Firm.inert {l : List UInt8} (h : Firm l) : Inert l := ⟨h.safe, l, h.erases, h.passes⟩

theorem Phrase.nil : Phrase [] := ⟨.nil, Passes.nil.skips⟩

theorem Firm.append {l r : List UInt8} (hl : Firm l) (hr : Firm r) : Firm (l ++ r) :=
  ⟨hl.toKept.append hr.toKept, hl.passes.append hr.passes⟩

theorem Firm.append_phrase {l r : List UInt8} (hl : Firm l) (hr : Phrase r) : Phrase (l ++ r) :=
  ⟨hl.toKept.append hr.toKept, hl.passes.append_skips hr.skips⟩

theorem Phrase.append {l r : List UInt8} (hl : Phrase l) (hr : Phrase r) (hopen : Opens r) :
    Phrase (l ++ r) := ⟨hl.toKept.append hr.toKept, hl.skips.append hr.skips hopen⟩

theorem Phrase.append_separator {l r : List UInt8} (hl : Phrase l) (hr : Separator r) :
    Firm (l ++ r) :=
  ⟨hl.toKept.append hr.toKept, hl.skips.append_passes hr.passes hr.opens hr.ne_nil⟩

theorem Inert.nil : Inert [] := ⟨by simp [Safe], [], .nil, .nil⟩

theorem Inert.append {l r : List UInt8} (hl : Inert l) (hr : Inert r) : Inert (l ++ r) := by
  obtain ⟨l', hl', hlp⟩ := hl.erases
  obtain ⟨r', hr', hrp⟩ := hr.erases
  exact ⟨hl.safe.append hr.safe, l' ++ r', hl'.append hr' hr.safe, hlp.append hrp⟩

end TaskLoom.Source
