import TaskLoom.Proofs.Hdl.RoundTrip
import TaskLoom.Proofs.Hdl.Scanning

/-!
# Texts that stay as they are

A text is stable if blanking out leaves it as it is where it stands in a line: it has no comment, no
directive, no attribute, not even one that is still open, and its strings are closed on their lines.
A declaration whose name, bounds and value are stable is left as it is as a whole
(`kept_paramLine_stable`, `kept_portLine_stable`).  A stable text that does not end in an escaped
identifier is cut into the same tokens before every mark (`isPiece_of_stable`).
-/

namespace TaskLoom.Source

open Text (bytes)

/-- Whatever stands behind the piece, short of a comment mark, blanking out goes through it and
leaves it as it is. -/
def Stays (start : Bool) (l : List UInt8) : Prop := ∃ e, ∀ q, Safe q → Scanned q start l l e

section
variable {start : Bool} {l r : List UInt8}

theorem Stays.of_quiet (h : l.all isQuiet = true) : Stays start l :=
  ⟨_, fun q _ => scanned_quiet (List.all_eq_true.1 h) q start⟩

/-- A piece before another one that stays as it is wherever it stands. -/
theorem Stays.append (h : Stays start l) (hr : ∀ start, Stays start r) (hsafe : Safe r) :
    Stays start (l ++ r) := by
  obtain ⟨e, hl⟩ := h
  obtain ⟨e', hr⟩ := hr e
  exact ⟨e', fun q hq => (hl (r ++ q) (hsafe.append hq)).append (hr q hq)⟩

/-- A piece in the middle of a line. -/
theorem Stays.behind (h : Stays false r) (hl : l.all isQuiet = true)
    (hflag : flagBehind start l = false) : Stays start (l ++ r) := by
  obtain ⟨e, hr⟩ := h
  refine ⟨e, fun q hq => (scanned_quiet (List.all_eq_true.1 hl) (r ++ q) start).append ?_⟩
  rw [hflag]
  exact hr q hq

/-- A piece behind a blank. -/
theorem Stays.space (h : Stays false r) : Stays false (bytes " " ++ r) := h.behind (by decide) rfl

theorem kept_of_stays (hsafe : Safe l) (h : ∀ start, Stays start l) : Kept l := by
  refine ⟨hsafe, rfl, fun start rest hrest => ?_⟩
  obtain ⟨e, hl⟩ := h start
  exact ⟨e, (hl rest hrest).strip⟩

end

/-! ### Stable texts -/

/-- What is put behind a text to test it: a blank, a mark, and the end of an attribute. -/
def testEnd : List UInt8 := 32 :: bytes ";*)"

/-- Whether blanking out leaves a text as it is in the middle of a line, even in front of the end of
an attribute. -/
def isStable (s : String) : Bool :=
  stripFrom 0 0 false (bytes s ++ testEnd) == bytes s ++ testEnd &&
    (tokens (bytes s)).all Token.isTidy

theorem treatment_plain_iff {start : Bool} {b : UInt8} {bs : List UInt8} :
    treatment start b bs = .plain ↔ b ≠ ascii '"' ∧
      (b = ascii '/' → bs.head? ≠ some (ascii '/') ∧ bs.head? ≠ some (ascii '*')) ∧
      (b = ascii '(' → bs.head? = some (ascii '*') →
        isWildcard bs.tail = true ∨ upTo? (ascii '*') (ascii ')') bs.tail = none) ∧
      (b = backtick → start = false) := by
  by_cases hquote : b = ascii '"'
  · subst hquote
    simp [treatment_quote]
  have hquote' : (b == ascii '"') = false := beq_eq_false_iff_ne.2 hquote
  by_cases hslash : b = ascii '/'
  · subst hslash
    have hopen : ascii '/' ≠ ascii '(' := by decide
    have htick : ascii '/' ≠ backtick := by decide
    rw [treatment, hquote']
    by_cases hline : bs.head? = some (ascii '/')
    · simp [hline]
    · by_cases hblock : bs.head? = some (ascii '*')
      · have hne : ascii '*' ≠ ascii '/' := by decide
        cases upTo? (ascii '*') (ascii '/') bs.tail <;> simp [hblock, hne]
      · simp [hline, hblock, hopen, htick, hquote]
  · by_cases hopen : b = ascii '('
    · subst hopen
      have htick : ascii '(' ≠ backtick := by decide
      have hslash' : (ascii '(' == ascii '/') = false := by decide
      rw [treatment, hquote', hslash']
      by_cases hattr : bs.head? = some (ascii '*')
      · cases hwild : isWildcard bs.tail with
        | true => simp [hattr, htick, hquote, hslash]
        | false =>
          cases hup : upTo? (ascii '*') (ascii ')') bs.tail <;>
            simp [hattr, htick, hquote, hslash]
      · simp [hattr, htick, hquote, hslash]
    · simp [treatment, hquote, hslash, hopen]

/-- What is blanked out does not look like what it becomes. -/
theorem blanked_ne {start : Bool} {b : UInt8} {bs : List UInt8} {n : Nat}
    (h : treatment start b bs = .erase n) : blanked b ≠ b := by
  intro hb
  have hspace : b = newline ∨ b = 32 := by
    unfold blanked at hb
    split at hb
    · rename_i hline
      exact .inl (eq_of_beq hline)
    · exact .inr hb.symm
  have hplain : treatment start b bs = .plain := by
    refine treatment_plain_iff.2 ⟨?_, ?_, ?_, ?_⟩
    all_goals rcases hspace with rfl | rfl
    all_goals simp [ascii, backtick, newline]
  rw [hplain] at h
  cases h

/-- A byte that is ordinary text when it is tested is ordinary text. -/
theorem treatment_tested {start : Bool} {b : UInt8} {l q : List UInt8}
    (h : treatment start b (l ++ testEnd) = .plain) (hq : Safe q) :
    treatment start b (l ++ q) = .plain := by
  obtain ⟨hquote, hslash, hopen, htick⟩ := treatment_plain_iff.1 h
  refine treatment_plain_iff.2 ⟨hquote, fun hb => ?_, fun hb hhead => ?_, htick⟩
  · cases l with
    | nil => exact ⟨fun hy => (hq _ hy).1 rfl, fun hy => (hq _ hy).2 rfl⟩
    | cons c l => exact hslash hb
  · cases l with
    | nil => exact absurd rfl (hq _ hhead).2
    | cons c l =>
      simp only [List.cons_append, List.tail_cons] at hopen ⊢
      rcases hopen hb hhead with hwild | hnone
      · refine .inl ?_
        unfold isWildcard at hwild ⊢
        rw [List.dropWhile_append] at hwild ⊢
        split at hwild
        · exact absurd hwild (by decide)
        · rename_i hne
          have hne' : l.dropWhile isSpace ≠ [] := by simpa using hne
          rw [if_neg hne, List.head?_append_of_ne_nil _ hne']
          rwa [List.head?_append_of_ne_nil _ hne'] at hwild
      · have hclosed : [ascii '*', ascii ')'] <:+ l ++ testEnd :=
          List.IsSuffix.trans ⟨[32, ascii ';'], by decide⟩ (List.suffix_append l testEnd)
        exact absurd (upTo?_suffix hnone hclosed) (by decide)

/-- A piece that is scanned and left as it is before the end of the test is so before every other
end. -/
theorem Scanned.tested {start e : Bool} {s s' l : List UInt8}
    (h : Scanned (bytes ";*)") start s s' e) (hs : s = l ++ [32]) (hsame : s' = s) :
    Stays start l := by
  induction h generalizing l with
  | nil start => simp at hs
  | @plain start e b s s' hplain _ ih =>
    cases l with
    | nil => exact .of_quiet rfl
    | cons c l =>
      obtain ⟨rfl, rfl⟩ := List.cons.inj hs
      obtain ⟨e', he⟩ := ih rfl (List.cons.inj hsame).2
      have htested : treatment start b (l ++ testEnd) = .plain := by
        rw [← hplain, testEnd, ← List.singleton_append, ← List.append_assoc]
        rfl
      exact ⟨e', fun q hq => .plain (treatment_tested htested hq) (he q hq)⟩
  | @erased start e b l₁ s s' herase _ ih =>
    have hfirst : blanked b = b := (List.cons.inj hsame).1
    exact absurd hfirst (blanked_ne herase)
  | @quoted start e l₁ s s' hl hs' ih =>
    have hsame' : s' = s := by
      have htail := (List.cons.inj hsame).2
      exact (List.cons.inj (List.append_cancel_left htail)).2
    rcases List.eq_nil_or_concat s with rfl | ⟨r, x, rfl⟩
    · have hlast := congrArg List.getLast? hs
      rw [← List.cons_append, List.getLast?_concat, List.getLast?_concat] at hlast
      exact absurd (Option.some.inj hlast) (by decide)
    · rw [List.concat_eq_append] at hs hsame' ih hs'
      have hsplit : ascii '"' :: (l₁ ++ ascii '"' :: r) ++ [x] = l ++ [32] := by
        rw [← hs]
        simp
      obtain ⟨rfl, hx⟩ := List.append_inj' hsplit rfl
      obtain ⟨e', he⟩ := ih (by rw [hx]) hsame'
      exact ⟨e', fun q hq => .quoted hl (he q hq)⟩

/-- A tidy token at the end of a text ends there before a blank, and before a mark if it is no
escaped identifier. -/
theorem tokenRest_end {b : UInt8} {l rest : List UInt8} {off : Nat}
    (h : tokenRest b l = l.length) (htidy : Token.isTidy ⟨b :: l, off⟩ = true)
    (hrest : ∀ y ∈ rest.head?, isSpace y = true ∨ (continuesWord y = false ∧ b ≠ ascii '\\')) :
    tokenRest b (l ++ rest) = l.length := by
  cases rest with
  | nil => rwa [List.append_nil]
  | cons y rest =>
    rcases hrest y rfl with hspace | ⟨hword, hslash⟩
    · refine tokenRest_swap (c := []) (by rwa [List.append_nil]) htidy fun z hz => .inl ?_
      rwa [← Option.some.inj hz]
    · by_cases hquote : b = ascii '"'
      · subst hquote
        rw [Token.isTidy] at htidy
        exact tokenRest_closed (by simpa using htidy) _
      · rw [tokenRest_unquoted hquote, if_neg hslash] at h ⊢
        split
        · rename_i hstart
          rw [if_pos hstart] at h
          have hall := List.takeWhile_eq_self_iff.1
            ((List.takeWhile_prefix continuesWord).eq_of_length h)
          rw [List.takeWhile_append_of_pos hall, List.takeWhile_cons_of_neg (by simp [hword]),
            List.append_nil]
        · rename_i hstart
          rwa [if_neg hstart] at h

/-- The tokens of a tidy text before a blank, or before a mark if the text does not end in an
escaped identifier. -/
theorem tokensFrom_tidy {l rest : List UInt8} {off : Nat}
    (htidy : ∀ t ∈ tokensFrom off 0 l, t.isTidy = true)
    (hrest : ∀ y ∈ rest.head?, isSpace y = true ∨ (continuesWord y = false ∧
      ∀ t ∈ (tokensFrom off 0 l).getLast?, t.bytes.head? ≠ some (ascii '\\'))) :
    tokensFrom off 0 (l ++ rest) = tokensFrom off 0 l ++ tokensFrom (off + l.length) 0 rest := by
  induction hn : l.length using Nat.strong_induction_on generalizing l off with
  | _ n ih =>
    subst hn
    cases l with
    | nil => rfl
    | cons b l =>
      cases hb : isSpace b with
      | true =>
        rw [tokensFrom_space hb] at htidy hrest
        rw [List.cons_append, tokensFrom_space hb, tokensFrom_space hb,
          ih l.length (Nat.lt_succ_self _) htidy hrest rfl, List.length_cons]
        congr 2
        omega
      | false =>
        have hle := tokenRest_le b l
        have hlength : (l.take (tokenRest b l)).length = tokenRest b l := by
          rw [List.length_take, Nat.min_eq_left hle]
        have hsplit := List.take_append_drop (tokenRest b l) l
        rw [tokensFrom_cons hb] at htidy hrest
        have hfirst := htidy _ List.mem_cons_self
        have hend : tokenRest b (l ++ rest) = tokenRest b l := by
          by_cases hdrop : l.drop (tokenRest b l) = []
          · have hwhole : tokenRest b l = l.length :=
              Nat.le_antisymm hle (List.drop_eq_nil_iff.1 hdrop)
            rw [hdrop, hwhole, List.take_length] at hrest
            rw [hwhole, List.take_length] at hfirst
            rw [hwhole]
            refine tokenRest_end hwhole hfirst fun y hy => (hrest y hy).imp_right ?_
            rintro ⟨hword, hlast⟩
            exact ⟨hword, fun hslash => hlast _ rfl (by rw [hslash]; rfl)⟩
          · have hswap : tokenRest b (l.take (tokenRest b l) ++ (l.drop (tokenRest b l) ++ rest)) =
                (l.take (tokenRest b l)).length := by
              refine tokenRest_swap (by rw [hsplit, hlength]) hfirst fun y hy => .inr ?_
              rwa [List.head?_append_of_ne_nil _ hdrop] at hy
            rwa [← List.append_assoc, hsplit, hlength] at hswap
        have hlt : (l.drop (tokenRest b l)).length < (b :: l).length := by
          rw [List.length_drop, List.length_cons]
          omega
        have hlater : tokensFrom (off + 1 + tokenRest b l) 0 (l.drop (tokenRest b l) ++ rest) =
            tokensFrom (off + 1 + tokenRest b l) 0 (l.drop (tokenRest b l)) ++ tokensFrom
              (off + 1 + tokenRest b l + (l.drop (tokenRest b l)).length) 0 rest := by
          refine ih _ hlt (fun t ht => htidy t (List.mem_cons_of_mem _ ht)) (fun y hy => ?_) rfl
          refine (hrest y hy).imp_right (And.imp_right fun hlast t ht => hlast t ?_)
          rw [List.getLast?_cons, Option.mem_def.1 ht]
          rfl
        rw [List.cons_append, tokensFrom_cons hb, tokensFrom_cons hb, hend,
          List.take_append_of_le_length hle, List.drop_append_of_le_length hle, hlater,
          List.length_drop, List.cons_append, List.length_cons]
        congr 3
        omega

/-- A stable text is left as it is in the middle of a line. -/
theorem stays_of_stable {s : String} (h : isStable s = true) : Stays false (bytes s) := by
  rw [isStable, Bool.and_eq_true, beq_iff_eq, List.all_eq_true] at h
  obtain ⟨hstrip, htidy⟩ := h
  have hend (off : Nat) : tokensFrom off 0 testEnd =
      [⟨[ascii ';'], off + 1⟩, ⟨[ascii '*'], off + 1 + 1⟩, ⟨[ascii ')'], off + 1 + 1 + 1⟩] := rfl
  have htokens : tokensFrom 0 0 (stripFrom 0 0 false (bytes s ++ testEnd)) = tokens (bytes s) ++
      ⟨[ascii ';'], 0 + (bytes s).length + 1⟩ :: [⟨[ascii '*'], 0 + (bytes s).length + 1 + 1⟩,
        ⟨[ascii ')'], 0 + (bytes s).length + 1 + 1 + 1⟩] := by
    rw [hstrip, tokensFrom_tidy htidy fun y hy => .inl (by cases hy; rfl), hend]
    rfl
  obtain ⟨l, l', r, e, hsplit, hscanned, hbegins, -⟩ :=
    exists_scanned (tokens (bytes s)) htokens htidy
  obtain ⟨hplace, -⟩ := hbegins.split
  have hlength : l.length = (bytes s ++ [32]).length := by
    rw [List.length_append, List.length_singleton]
    simp only at hplace
    omega
  have hsplit' : bytes s ++ [32] ++ bytes ";*)" = l ++ r := by
    rw [← hsplit, List.append_assoc, testEnd, List.singleton_append]
  obtain ⟨rfl, rfl⟩ := List.append_inj hsplit' hlength.symm
  have hsame : l' = bytes s ++ [32] := by
    have hstays : bytes s ++ [32] ++ bytes ";*)" = l' ++ stripFrom 0 0 e (bytes ";*)") := by
      rw [← hscanned.strip, ← hsplit, hstrip]
    exact (List.append_inj hstays hscanned.length_eq.symm).1.symm
  exact hscanned.tested rfl hsame

/-- A stable name stays as it is, also at the beginning of a line. -/
theorem kept_name {s : String} (hname : isNameText s = true) (h : isStable s = true) :
    Kept (bytes s) := by
  rw [isNameText, Token.isName] at hname
  cases hs : bytes s with
  | nil => simp [hs] at hname
  | cons b l =>
    simp only [hs, Bool.and_eq_true] at hname
    have hfirst {y : UInt8} (hy : (y == ascii '_' || y == ascii '\\' || (97 ≤ y && y ≤ 122) ||
        (65 ≤ y && y ≤ 90)) = false) : b ≠ y := by
      rintro rfl
      rw [hname.1] at hy
      cases hy
    have hquiet : isQuiet b = true := by
      simp only [isQuiet, Bool.and_eq_true, bne_iff_ne]
      exact ⟨⟨⟨hfirst (by decide), hfirst (by decide)⟩, hfirst (by decide)⟩, hfirst (by decide)⟩
    have hspace : isSpace b = false := by
      simp only [isSpace, Bool.or_eq_false_iff, beq_eq_false_iff_ne]
      exact ⟨⟨⟨hfirst (by decide), hfirst (by decide)⟩, hfirst (by decide)⟩, hfirst (by decide)⟩
    refine kept_of_stays (fun y hy => ?_) fun start => ?_
    · cases hy
      exact ⟨hfirst (by decide), hfirst (by decide)⟩
    · obtain ⟨e, he⟩ := stays_of_stable h
      rw [hs] at he
      exact ⟨e, fun q hq => (he q hq).of_quiet hquiet hspace start⟩

/-- A fixed text completes no comment mark. -/
theorem safe_text {s : String} (h : ((bytes s).all isOrdinary && bytes s != []) = true)
    (c : List UInt8) : Safe (bytes s ++ c) := by
  rw [Bool.and_eq_true, bne_iff_ne] at h
  exact (kept_text h.1).safe.append_left h.2 c

section
variable {l : List UInt8}

/-- The range of a declaration in the middle of a line. -/
theorem stays_rangeSuffix {r : Option BitRange}
    (hr : ∀ b ∈ r, isStable b.msb = true ∧ isStable b.lsb = true) (hl : Stays false l) :
    Stays false (bytes (rangeSuffix r) ++ l) := by
  cases r with
  | none => exact hl
  | some b =>
    obtain ⟨hm, hl'⟩ := hr b rfl
    have hclosing (start : Bool) : Stays start (bytes "]" ++ l) :=
      hl.behind (by decide) (by cases start <;> rfl)
    have hlsb : Stays false (bytes b.lsb ++ (bytes "]" ++ l)) :=
      (stays_of_stable hl').append hclosing (safe_text (by decide) _)
    have hcolon (start : Bool) : Stays start (bytes ":" ++ (bytes b.lsb ++ (bytes "]" ++ l))) :=
      hlsb.behind (by decide) (by cases start <;> rfl)
    have hmsb := (stays_of_stable hm).append hcolon (safe_text (by decide) _)
    have hopening : Stays false (bytes "[" ++ (bytes b.msb ++ (bytes ":" ++ (bytes b.lsb ++
        (bytes "]" ++ l))))) := hmsb.behind (by decide) rfl
    simpa only [rangeSuffix, BitRange.text, Text.bytes_append, List.append_assoc]
      using hopening.space

/-- The keyword of a declaration on a line of its own. -/
theorem kept_declaration {keyword : String} (hkeyword : (bytes keyword).all isQuiet = true)
    (hline : ∀ start, flagBehind start (List.replicate 2 32 ++ bytes keyword) = false)
    (hl : Stays false l) : Kept (List.replicate 2 32 ++ (bytes keyword ++ l)) := by
  have hsafe : Safe (List.replicate 2 32 ++ (bytes keyword ++ l)) :=
    (kept_blanks 2).safe.append_left (by simp) _
  refine kept_of_stays hsafe fun start => ?_
  rw [← List.append_assoc]
  refine hl.behind ?_ (hline start)
  rw [List.all_append, hkeyword]
  decide

theorem stays_end (start : Bool) : Stays start (bytes ";" ++ bytes "\n") :=
  .of_quiet (by decide)

end

/-- The line of a parameter with stable texts stays as it is. -/
theorem kept_paramLine_stable {p : Param} (hname : isStable p.name = true)
    (hvalue : isStable p.value = true)
    (hr : ∀ b ∈ p.range, isStable b.msb = true ∧ isStable b.lsb = true) : Kept (bytes p.line) := by
  have hassigned (start : Bool) :
      Stays start (bytes " = " ++ (bytes p.value ++ (bytes ";" ++ bytes "\n"))) :=
    ((stays_of_stable hvalue).append stays_end (safe_text (by decide) _)).behind (by decide)
      (by cases start <;> rfl)
  have hnamed := (stays_of_stable hname).append hassigned (safe_text (by decide) _)
  have hkeyword : (bytes (paramKeyword p.isLocal)).all isQuiet = true := by
    cases p.isLocal <;> decide
  have hline := kept_declaration hkeyword (by cases p.isLocal <;> decide)
    (stays_rangeSuffix hr hnamed.space)
  have htext := bytes_paramLine p []
  rw [List.append_nil, List.append_nil] at htext
  rwa [htext]

/-- The line of a port with stable texts stays as it is. -/
theorem kept_portLine_stable {p : Port} (hname : isStable p.name = true)
    (hr : ∀ b ∈ p.range, isStable b.msb = true ∧ isStable b.lsb = true) : Kept (bytes p.line) := by
  have hnamed := (stays_of_stable hname).append stays_end (safe_text (by decide) _)
  have hkeyword : (bytes p.direction.keyword).all isQuiet = true := by
    cases p.direction <;> decide
  have hline := kept_declaration hkeyword (by cases p.direction <;> decide)
    (stays_rangeSuffix hr hnamed.space)
  have htext := bytes_portLine p []
  rw [List.append_nil, List.append_nil] at htext
  rwa [htext]

/-- The keyword of a module and its name stay as they are. -/
theorem kept_moduleName {name : String} (h : isStable name = true) :
    Kept (bytes ("module " ++ name)) := by
  rw [Text.bytes_append]
  refine kept_of_stays (safe_text (by decide) _) fun start => ?_
  exact (stays_of_stable h).behind (by decide) (by cases start <;> rfl)

/-! ### Stable pieces -/

/-- Whether the last token of a text is an escaped identifier, which goes on up to the next
blank. -/
def endsEscaped (s : String) : Bool :=
  (tokens (bytes s)).getLast?.any fun t => t.bytes.head? == some (ascii '\\')

/-- A text with tidy tokens is cut off before a blank, and before whatever cannot continue a word if
the text does not end in an escaped identifier. -/
theorem tokensFrom_ended {s : String} (htidy : (tokens (bytes s)).all Token.isTidy = true)
    {rest : List UInt8} (hrest : ∀ y ∈ rest.head?, isSpace y = true ∨
      (continuesWord y = false ∧ endsEscaped s = false)) (off : Nat) :
    tokensFrom off 0 (bytes s ++ rest) =
      tokensFrom off 0 (bytes s) ++ tokensFrom (off + (bytes s).length) 0 rest := by
  have hbytes : (tokensFrom off 0 (bytes s)).map Token.bytes =
      (tokens (bytes s)).map Token.bytes := bytes_tokensFrom off 0 0 (bytes s)
  rw [List.all_eq_true] at htidy
  refine tokensFrom_tidy (fun t ht => ?_) fun y hy => (hrest y hy).imp_right ?_
  · have hmem : t.bytes ∈ (tokens (bytes s)).map Token.bytes :=
      hbytes ▸ List.mem_map_of_mem ht
    obtain ⟨u, hu, hsame⟩ := List.mem_map.1 hmem
    have htidy := htidy u hu
    rwa [Token.isTidy, hsame] at htidy
  · rintro ⟨hword, hend⟩
    refine ⟨hword, fun t ht hslash => ?_⟩
    have hlast : t.bytes ∈ ((tokens (bytes s)).map Token.bytes).getLast? := by
      rw [← hbytes, List.getLast?_map, Option.mem_def.1 ht]
      rfl
    rw [List.getLast?_map] at hlast
    obtain ⟨u, hu, hsame⟩ := Option.map_eq_some_iff.1 hlast
    rw [endsEscaped, hu, Option.any_some, hsame, hslash] at hend
    simp at hend

/-- A stable text without blanks at its ends that does not end in an escaped identifier is cut into
the same tokens before every mark. -/
theorem isPiece_of_stable {s : String} (htrim : Text.trim s = s) (h : isStable s = true)
    (hend : endsEscaped s = false) : IsPiece s := by
  rw [isStable, Bool.and_eq_true] at h
  exact ⟨htrim, fun off rest hopen =>
    tokensFrom_ended h.2 (fun y hy => .inr ⟨hopen y hy, hend⟩) off⟩

end TaskLoom.Source
