import TaskLoom.Proofs.Hdl.Phrases

/-!
# The rendered body of a module

Every line that declares a signal, a cell or logic of a plain module is inert: it holds phrases,
attributes and comments, and nothing that a reader of sources acts on.  The proof for statements
follows their structure.
-/

namespace TaskLoom.Source

open Text (bytes)

theorem Inert.join {ss : List String} (h : ∀ s ∈ ss, Inert (bytes s)) :
    Inert (bytes (String.join ss)) := by
  induction ss with
  | nil => exact Inert.nil
  | cons s ss ih =>
    rw [String.join_cons, Text.bytes_append]
    exact (h s List.mem_cons_self).append (ih fun t ht => h t (List.mem_cons_of_mem _ ht))

theorem bytes_indented (depth : Nat) (s : String) :
    bytes (indented depth s) = List.replicate (2 * depth) 32 ++ bytes s ++ bytes "\n" := by
  have hblanks : bytes (String.ofList (List.replicate (2 * depth) ' ')) =
      List.replicate (2 * depth) 32 := by
    rw [Text.bytes_ofList, List.flatMap_replicate]
    simp [String.utf8EncodeChar]
  rw [indented, Text.bytes_append, Text.bytes_append, hblanks]

theorem firm_blanks (n : Nat) : Firm (List.replicate n (32 : UInt8)) := by
  constructor
  · refine kept_of_ordinary fun b hb => ?_
    rw [List.eq_of_mem_replicate hb]
    decide
  · refine passes_blank fun b hb => ?_
    rw [List.eq_of_mem_replicate hb]
    decide

theorem Phrase.line {s : String} (h : Phrase (bytes s)) (depth : Nat) :
    Firm (bytes (indented depth s)) := by
  rw [bytes_indented, List.append_assoc]
  exact (firm_blanks _).append (h.append_separator separator_newline)

theorem firm_commaLines {ss : List String} (h : ∀ s ∈ ss, Phrase (bytes s)) (depth : Nat) :
    ∀ l ∈ commaLines depth ss, Firm (bytes l) := by
  induction ss using commaLines.induct with
  | case1 => simp [commaLines]
  | case2 s =>
    intro l hl
    rw [List.mem_singleton.1 hl]
    exact (h s List.mem_cons_self).line depth
  | case3 s t rest ih =>
    intro l hl
    rcases List.mem_cons.1 hl with rfl | hl
    · have hs : Phrase (bytes (s ++ ",")) := by
        rw [Text.bytes_append]
        exact ((h s List.mem_cons_self).append_separator separator_comma).phrase
      exact hs.line depth
    · exact ih (fun u hu => h u (List.mem_cons_of_mem _ hu)) l hl

/-- A line of an inert piece and a phrase. -/
theorem Inert.line {s t : String} (hs : Inert (bytes s)) (ht : Phrase (bytes t)) (depth : Nat) :
    Inert (bytes (indented depth (s ++ t))) := by
  rw [bytes_indented, Text.bytes_append, List.append_assoc, List.append_assoc]
  exact (firm_blanks _).inert.append (hs.append (ht.append_separator separator_newline).inert)

/-! ### Comments and attributes -/

theorem Erases.blanks_append {s s' : List UInt8} (h : Erases s s') (n : Nat) :
    Erases (List.replicate n 32 ++ s) (List.replicate n 32 ++ s') := by
  refine ⟨by simp [h.1], fun start rest hrest => ?_⟩
  induction n generalizing start with
  | zero => exact h.2 start rest hrest
  | succ n ih =>
    -- a blank begins no comment, whatever stands behind it
    have hplain (bs : List UInt8) : treatment start 32 bs = .plain :=
      treatment_plain (by decide) (by decide) fun y _ =>
        ⟨fun hy => absurd hy.1 (by decide), fun hy => absurd hy.1 (by decide)⟩
    obtain ⟨start', hs⟩ := ih ((32 : UInt8) == newline || (isSpace 32 && start))
    exact ⟨start', by
      simp only [List.replicate_succ, List.cons_append, stripFrom, hplain, hs]⟩

theorem isSpace_blanked (b : UInt8) : isSpace (blanked b) = true := by
  unfold blanked
  split
  · rename_i hb
    rw [eq_of_beq hb]
    decide
  · decide

theorem inert_comment {s : String} (h : newline ∉ bytes s) (depth : Nat) :
    Inert (bytes (indented (depth + 1) ("//" ++ s))) := by
  have hbytes : bytes (indented (depth + 1) ("//" ++ s)) = List.replicate (2 * (depth + 1)) 32 ++
      (ascii '/' :: ascii '/' :: (bytes s ++ [newline])) := by
    rw [bytes_indented, Text.bytes_append, List.append_assoc, List.append_assoc]
    rfl
  rw [hbytes]
  refine ⟨?_, _, (erases_comment h).blanks_append _, ?_⟩
  · exact (firm_blanks _).safe.append_left (by simp) _
  · refine passes_blank fun b hb => ?_
    simp only [List.mem_append, List.mem_cons, List.mem_map, List.not_mem_nil, or_false] at hb
    rcases hb with hb | rfl | rfl | ⟨b, -, rfl⟩ | rfl
    · rw [List.eq_of_mem_replicate hb]
      decide
    · decide
    · decide
    · exact isSpace_blanked b
    · decide

/-- The two bytes do not end an attribute. -/
def NoEnd (a b : UInt8) : Prop := ¬ (a = ascii '*' ∧ b = ascii ')')

theorem isChain_intercalate {attrs : List String} (h : ∀ a ∈ attrs, isAttribute a = true) :
    (bytes (String.intercalate ", " attrs)).IsChain NoEnd := by
  induction attrs with
  | nil => exact .nil
  | cons a attrs ih =>
    have ha := h a List.mem_cons_self
    rw [isAttribute, Bool.and_eq_true] at ha
    have hchain : (bytes a).IsChain NoEnd := isChain_of_upTo? (eq_of_beq ha.1)
    cases attrs with
    | nil => rwa [String.intercalate_singleton]
    | cons b attrs =>
      have hrest := ih fun c hc => h c (List.mem_cons_of_mem _ hc)
      have hcomma : bytes ", " = [ascii ',', 32] := by decide
      rw [String.intercalate_cons_cons, Text.bytes_append, Text.bytes_append, List.append_assoc,
        hcomma]
      refine List.isChain_append.2 ⟨hchain, List.isChain_append.2 ⟨?_, hrest, ?_⟩, ?_⟩
      · exact .cons_cons (fun hxy => absurd hxy.2 (by decide)) (.singleton _)
      · rintro x hx y -
        cases hx
        exact fun hxy => absurd hxy.1 (by decide)
      · rintro x - y hy
        cases hy
        exact fun hxy => absurd hxy.2 (by decide)

theorem isWildcard_intercalate {attrs : List String} (h : beginsAttributes attrs = true) :
    isWildcard (bytes (String.intercalate ", " attrs)) = false := by
  cases attrs with
  | nil => rfl
  | cons a attrs =>
    have ha : isWildcard (bytes a) = false := by simpa [beginsAttributes] using h
    cases attrs with
    | nil => rwa [String.intercalate_singleton]
    | cons b attrs =>
      have hcomma : bytes ", " = [ascii ',', 32] := by decide
      rw [String.intercalate_cons_cons, Text.bytes_append, Text.bytes_append, List.append_assoc,
        hcomma]
      exact isWildcard_append ha rfl

theorem inert_attrList {attrs : List String} (h : attrs.all isAttribute = true)
    (hfirst : beginsAttributes attrs = true) : Inert (bytes (attrList attrs)) := by
  have hchain : (32 :: (bytes (String.intercalate ", " attrs) ++ [32])).IsChain NoEnd := by
    refine List.isChain_cons.2 ⟨fun y _ hxy => absurd hxy.1 (by decide), ?_⟩
    refine List.isChain_append.2 ⟨isChain_intercalate (List.all_eq_true.1 h), .singleton _, ?_⟩
    rintro x - y hy
    cases hy
    exact fun hxy => absurd hxy.2 (by decide)
  have hwild : isWildcard (32 :: (bytes (String.intercalate ", " attrs) ++ [32])) = false :=
    isWildcard_append (l := [32]) rfl (isWildcard_append (isWildcard_intercalate hfirst) rfl)
  have hbytes : bytes (attrList attrs) = ascii '(' :: ascii '*' ::
      ((32 :: (bytes (String.intercalate ", " attrs) ++ [32])) ++ [ascii '*', ascii ')']) := by
    rw [attrList, Text.bytes_append, Text.bytes_append,
      show bytes "(* " = [ascii '(', ascii '*', 32] by decide,
      show bytes " *)" = [32, ascii '*', ascii ')'] by decide]
    simp
  rw [hbytes]
  refine ⟨?_, _, erases_attribute hchain hwild, passes_blank fun b hb => ?_⟩
  · intro y hy
    cases hy
    decide
  · obtain ⟨x, -, rfl⟩ := List.mem_map.1 hb
    exact isSpace_blanked x

theorem phrase_declaration {name : String} {r : Option BitRange} {kind : String}
    (hkind : isPhraseText kind = true) (hr : RangeOf IsText r) (hs : RangeOf Silent r)
    (hname : isPlainName name = true) :
    Phrase (bytes (kind ++ rangeSuffix r ++ " " ++ name ++ ";")) := by
  have hfront := (Phrase.of_text hkind).append_separator (separator_rangeSuffix hr hs)
  have hall := ((hfront.append_phrase (.of_name hname)).append_separator separator_semicolon).phrase
  simpa only [Text.bytes_append, List.append_assoc] using hall

theorem inert_signal {s : Signal} (hname : isPlainName s.name = true)
    (hr : RangeOf IsText s.range) (hs : RangeOf Silent s.range)
    (hattrs : s.attrs.all isAttribute = true) (hfirst : beginsAttributes s.attrs = true) :
    Inert (bytes s.line) := by
  have hkind : isPhraseText s.kind.keyword = true := by
    cases s.kind <;> decide
  have hdecl := phrase_declaration hkind hr hs hname
  unfold Signal.line
  split
  · simpa using (hdecl.line 1).inert
  · have hattr : Inert (bytes (attrList s.attrs ++ " ")) := by
      rw [Text.bytes_append]
      exact (inert_attrList hattrs hfirst).append separator_space.inert
    have hline := hattr.line hdecl 1
    simpa only [String.append_assoc] using hline

theorem phrase_binding {b : Binding} (h : b.isPlain = true) : Phrase (bytes b.text) := by
  rw [Binding.isPlain, Bool.and_eq_true] at h
  have hdot : Firm (bytes ".") := .of_text (by decide)
  simp only [Binding.text, Text.bytes_append]
  have hname := (hdot.append_phrase (.of_name h.1)).append_separator separator_opening
  exact ((hname.append_phrase (phrase_expr b.arg h.2)).append_separator separator_closing).phrase

theorem inert_text_line {s : String} (h : isPhraseText s = true) (depth : Nat) :
    Inert (bytes (indented depth s)) := ((Phrase.of_text h).line depth).inert

theorem inert_bindings {bs : List Binding} (h : bs.all Binding.isPlain = true) (depth : Nat) :
    ∀ l ∈ commaLines depth (bs.map Binding.text), Inert (bytes l) := by
  refine fun l hl => (firm_commaLines (fun s hs => ?_) depth l hl).inert
  obtain ⟨b, hb, rfl⟩ := List.mem_map.1 hs
  exact phrase_binding (List.all_eq_true.1 h b hb)

theorem trim_attrList (attrs : List String) : Text.trim (attrList attrs) = attrList attrs := by
  refine Text.trim_of_ends (fun c hc => ?_) fun c hc => ?_
  · have hfirst : (attrList attrs).toList.head? = some '(' := by
      simp [attrList]
    rw [hfirst] at hc
    cases hc
    decide
  · have hlast : (attrList attrs).toList.getLast? = some ')' := by
      rw [attrList, String.toList_append, List.getLast?_append_of_ne_nil _ (by decide)]
      rfl
    rw [hlast] at hc
    cases hc
    decide

theorem inert_cell {c : Cell} (h : c.isPlain = true) (hfirst : beginsAttributes c.attrs = true) :
    ∀ l ∈ c.lines, Inert (bytes l) := by
  simp only [Cell.isPlain, Bool.and_eq_true] at h
  obtain ⟨⟨⟨⟨hmodule, hname⟩, hparams⟩, hports⟩, hattrs⟩ := h
  have hblank : Inert (bytes blankLine) := separator_newline.inert
  have hattr : ∀ l ∈ (if c.attrs.isEmpty then []
      else [indented 1 (Text.trim (attrList c.attrs))]), Inert (bytes l) := by
    intro l hl
    split at hl
    · cases hl
    · rw [List.mem_singleton.1 hl, trim_attrList]
      have hline := (inert_attrList hattrs hfirst).line (t := "") Phrase.nil 1
      rwa [String.append_empty] at hline
  have hparam : ∀ l ∈ (if c.params.isEmpty then []
      else [indented 1 "#("] ++ commaLines 2 (c.params.map Binding.text) ++ [indented 1 ")"]),
      Inert (bytes l) := by
    intro l hl
    split at hl
    · cases hl
    · simp only [List.mem_append, List.mem_singleton] at hl
      rcases hl with (rfl | hl) | rfl
      · exact inert_text_line (by decide) 1
      · exact inert_bindings hparams 2 l hl
      · exact inert_text_line (by decide) 1
  intro l hl
  simp only [Cell.lines, List.mem_append, List.mem_cons, List.not_mem_nil, or_false] at hl
  rcases hl with (((((rfl | hl) | rfl) | hl) | rfl | rfl) | hl) | rfl | rfl
  · exact hblank
  · exact hattr l hl
  · exact ((Phrase.of_name hmodule).line 1).inert
  · exact hparam l hl
  · exact ((Phrase.of_name hname).line 1).inert
  · exact inert_text_line (by decide) 1
  · exact inert_bindings hports 2 l hl
  · exact inert_text_line (by decide) 1
  · exact hblank

/-- An expression between two fixed texts. -/
theorem Phrase.enclosed {s : String} (h : Phrase (bytes s)) (before behind : String)
    (hbefore : isFirmText before = true) (hbehind : isPhraseText behind = true)
    (hopen : isOpenText behind = true) : Phrase (bytes (before ++ s ++ behind)) := by
  rw [Text.bytes_append, Text.bytes_append]
  exact ((Firm.of_text hbefore).append_phrase h).append (.of_text hbehind) (opens_text hopen).1

theorem phrase_assignment (front mark : String) {target : String} {value : Expr}
    (hfront : isFirmText front = true) (hmark : isSeparatorText mark = true)
    (htarget : isPlainName target = true) (hvalue : value.isPlain = true) :
    Phrase (bytes (front ++ target ++ mark ++ value.text ++ ";")) := by
  simp only [Text.bytes_append]
  have htext := (Firm.of_text hfront).append_phrase (.of_name htarget)
  have hleft := htext.append_separator (.of_text hmark)
  have hboth := hleft.append_phrase (phrase_expr value hvalue)
  exact (hboth.append_separator separator_semicolon).phrase

theorem isPlain_of_mem {es : List Expr} {e : Expr} (h : Expr.arePlain es = true) (he : e ∈ es) :
    e.isPlain = true := by
  induction es with
  | nil => cases he
  | cons a es ih =>
    rw [Expr.arePlain, Bool.and_eq_true] at h
    rcases List.mem_cons.1 he with rfl | he
    · exact h.1
    · exact ih h.2 he

theorem phrase_display {format : String} {args : List Expr} (h : Expr.arePlain args = true) :
    Phrase (bytes ("$display(" ++
      String.intercalate ", " (Text.quote format :: args.map Expr.text) ++ ");")) := by
  refine Phrase.enclosed (phrase_intercalate (.of_text (by decide)) fun s hs => ?_) _ _
    (by decide) (by decide) (by decide)
  rcases List.mem_cons.1 hs with rfl | hs
  · exact (firm_quote format).phrase
  · obtain ⟨e, he, rfl⟩ := List.mem_map.1 hs
    exact phrase_expr e (isPlain_of_mem h he)

mutual

theorem inert_stmt : ∀ (s : Stmt) (depth : Nat), s.isPlain = true →
    ∀ l ∈ s.lines depth, Inert (bytes l)
  | .assign target value, depth, h, l, hl => by
    rw [Stmt.isPlain, Bool.and_eq_true] at h
    rw [Stmt.lines, List.mem_singleton] at hl
    have hline := (phrase_assignment "" " <= " (by decide) (by decide)
      h.1 h.2).line depth
    rw [hl]
    simpa using hline.inert
  | .branch cond onTrue onFalse, depth, h, l, hl => by
    simp only [Stmt.isPlain, Bool.and_eq_true] at h
    simp only [Stmt.lines, List.mem_append, List.mem_singleton] at hl
    rcases hl with ((rfl | hl) | hl) | rfl
    · have hhead := (phrase_expr cond h.1.1).enclosed "if(" ") begin" (by decide)
        (by decide) (by decide)
      exact (hhead.line depth).inert
    · exact inert_block onTrue (depth + 1) h.1.2 l hl
    · split at hl
      · cases hl
      · rcases List.mem_cons.1 hl with rfl | hl
        · exact inert_text_line (by decide) depth
        · exact inert_block onFalse (depth + 1) h.2 l hl
    · exact inert_text_line (by decide) depth
  | .select subject arms, depth, h, l, hl => by
    rw [Stmt.isPlain, Bool.and_eq_true] at h
    simp only [Stmt.lines, List.mem_append, List.mem_singleton] at hl
    rcases hl with (rfl | hl) | rfl
    · have hhead := (phrase_expr subject h.1).enclosed "case(" ")" (by decide)
        (by decide) (by decide)
      exact (hhead.line depth).inert
    · exact inert_arms arms (depth + 1) h.2 l hl
    · exact inert_text_line (by decide) depth
  | .display format args, depth, h, l, hl => by
    rw [Stmt.lines, List.mem_singleton] at hl
    rw [hl]
    exact ((phrase_display h).line depth).inert

theorem inert_block : ∀ (ss : List Stmt) (depth : Nat), Stmt.arePlain ss = true →
    ∀ l ∈ Stmt.blockLines depth ss, Inert (bytes l)
  | [], _, _, _, hl => by simp [Stmt.blockLines] at hl
  | s :: ss, depth, h, l, hl => by
    rw [Stmt.arePlain, Bool.and_eq_true] at h
    rw [Stmt.blockLines, List.mem_append] at hl
    rcases hl with hl | hl
    · exact inert_stmt s depth h.1 l hl
    · exact inert_block ss depth h.2 l hl

theorem inert_arms : ∀ (arms : List (Expr × List Stmt)) (depth : Nat),
    Stmt.armsPlain arms = true → ∀ l ∈ Stmt.armLines depth arms, Inert (bytes l)
  | [], _, _, _, hl => by simp [Stmt.armLines] at hl
  | (pattern, body) :: arms, depth, h, l, hl => by
    simp only [Stmt.armsPlain, Bool.and_eq_true] at h
    simp only [Stmt.armLines, List.mem_append, List.mem_singleton] at hl
    rcases hl with ((rfl | hl) | rfl) | hl
    · have hpattern := (phrase_expr pattern h.1.1).enclosed "" ": begin"
        (by decide) (by decide) (by decide)
      rw [String.empty_append] at hpattern
      exact (hpattern.line depth).inert
    · exact inert_block body (depth + 1) h.1.2 l hl
    · exact inert_text_line (by decide) depth
    · exact inert_arms arms depth h.2 l hl

end

theorem inert_logic {x : Logic} (h : x.isPlain = true) : ∀ l ∈ x.lines, Inert (bytes l) := by
  intro l hl
  cases x with
  | assign target value =>
    rw [Logic.isPlain, Bool.and_eq_true] at h
    rw [Logic.lines, List.mem_singleton] at hl
    rw [hl]
    exact ((phrase_assignment _ " = " (by decide) (by decide) h.1 h.2).line 1).inert
  | clocked body simulationOnly =>
    have hmark (s : String) (hs : newline ∉ bytes s) (hl : l ∈ if simulationOnly then
        [indented 1 ("//" ++ s)] else []) : Inert (bytes l) := by
      split at hl
      · rw [List.mem_singleton.1 hl]
        exact inert_comment hs 0
      · cases hl
    simp only [Logic.lines, List.mem_append, List.mem_singleton] at hl
    rcases hl with (((hl | rfl) | hl) | rfl) | hl
    · exact hmark " synthesis translate_off" (by decide) hl
    · exact inert_text_line (by decide) 1
    · exact inert_block body 2 h l hl
    · exact inert_text_line (by decide) 1
    · exact hmark " synthesis translate_on" (by decide) hl

/-- Everything between the ports and the end of a module. -/
def insideText (m : Module) : String := String.join
  (m.signals.map Signal.line ++ m.cells.flatMap Cell.lines ++ m.logics.flatMap Logic.lines)

theorem inert_inside {m : Module} (hp : m.Plain) (hl : m.Legible) :
    Inert (bytes (insideText m)) := by
  refine Inert.join fun s hs => ?_
  simp only [List.mem_append, List.mem_map, List.mem_flatMap] at hs
  rcases hs with (⟨x, hx, rfl⟩ | ⟨c, hc, hs⟩) | ⟨x, hx, hs⟩
  · obtain ⟨hname, htexts, hattrs⟩ := hp.signals x hx
    obtain ⟨hsilent, hfirst⟩ := hl.signals x hx
    exact inert_signal hname htexts hsilent hattrs hfirst
  · exact inert_cell (hp.cells c hc) (hl.cells c hc) s hs
  · exact inert_logic (hp.logics x hx) s hs

end TaskLoom.Source
