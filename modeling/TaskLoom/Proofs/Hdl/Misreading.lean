import TaskLoom.Proofs.Hdl.RoundTrip

/-!
# Declarations that are not read back

A comma or a semicolon right behind an escaped identifier belongs to it, and a type word in place of
a name is taken for a type.  In both cases the reader stops at the declaration (`fails_ports`,
`fails_params`).  So the text of a module whose texts are read where they stand is either read back
as a whole or not at all (`parse_misread`).
-/

namespace TaskLoom.Source

open Text (bytes)

/-! ### Readers that stop -/

/-- A reader that stands at this place ends with a complaint. -/
def Fails (clean : List UInt8) (module : String) (a : Place) : Prop :=
  ∀ fuel, (left clean a.rest).length < fuel →
    ∃ e, body clean module fuel a.ports a.params (left clean a.rest) = .error e

section
variable {clean c : List UInt8} {module : String} {ports : List PortDecl} {params : List Param}

theorem Reaches.fails {a b : Place} (h : Reaches clean module a b) (hb : Fails clean module b) :
    Fails clean module a := by
  intro fuel hfuel
  obtain ⟨fuel', hfuel', hread⟩ := h fuel hfuel
  rw [hread]
  exact hb fuel' hfuel'

theorem Fails.of_step {a : Place} {t : Token} {ts : List Token} (hleft : left clean a.rest = t :: ts)
    (hstep : ∀ fuel, ∃ e, body clean module (fuel + 1) a.ports a.params (t :: ts) = .error e) :
    Fails clean module a := by
  intro fuel hfuel
  rw [hleft] at hfuel ⊢
  obtain ⟨fuel, rfl⟩ : ∃ k, fuel = k + 1 := ⟨fuel - 1, by omega⟩
  exact hstep fuel

theorem isWordText_typeWord {s : String} (h : s ∈ typeWords) : isWordText s = true := by
  have hall : ∀ w ∈ typeWords, isWordText w = true := by decide
  exact hall s h

/-- A type word in place of a name is taken for a type. -/
theorem typeAndRange_typeWord {name mark : String} {d d' : List UInt8} {ts : List Token}
    (hname : name ∈ typeWords) (hmark : mark ∉ typeWords) (hopen : (mark == "[") = false) :
    typeAndRange clean (tokenAt clean name d :: tokenAt clean mark d' :: ts) =
      .ok (none, tokenAt clean mark d' :: ts) := by
  rw [typeAndRange, List.dropWhile_cons_of_pos (by simpa using hname),
    List.dropWhile_cons_of_neg (by simpa using hmark), range]
  simp only [tokenAt_text, hopen, Bool.false_eq_true, if_false]

/-- A parameter without a range that is named like a type. -/
theorem fails_param {p : Param} (hrange : p.range = none) (htype : p.name ∈ typeWords)
    (h : bytes p.line ++ c <:+ clean) :
    Fails clean module ⟨ports, params, bytes p.line ++ c⟩ := by
  have hequals : bytes " = " = bytes " " ++ (bytes "=" ++ bytes " ") := by decide
  have hnone : bytes (rangeSuffix none) = [] := rfl
  rw [bytes_paramLine, hrange, hnone, List.nil_append, hequals, List.append_assoc,
    List.append_assoc] at h ⊢
  have hkeyword : isWordText (paramKeyword p.isLocal) = true := by
    cases p.isLocal <;> decide
  have hwords : (paramKeyword p.isLocal == "endmodule") = false ∧
      (paramKeyword p.isLocal == "function" || paramKeyword p.isLocal == "task") = false ∧
      (paramKeyword p.isLocal == "parameter" || paramKeyword p.isLocal == "localparam") = true := by
    cases p.isLocal <;> decide
  have h₁ := behind h
  have h₂ := behind h₁
  have h₃ := behind h₂
  have h₄ := behind h₃
  have hleft := (left_blank (blanks 2) h).trans
    (left_word hkeyword (opens_text_append (s := " ") (by decide) _) h₁)
  rw [left_space h₂, left_word (isWordText_typeWord htype) (opens_text_append (by decide) _) h₃,
    left_space h₄, left_mark (by decide) (behind h₄)] at hleft
  refine .of_step hleft fun fuel => ?_
  rw [body]
  have hname : isNameText "=" = false := by decide
  simp only [tokenAt_text, hwords, Bool.false_eq_true, if_false, if_true, paramGroup, headText,
    List.drop_succ_cons, List.drop_zero]
  rw [typeAndRange_typeWord htype (by decide) (by decide)]
  simp only [bind, Except.bind, assignments, isName_tokenAt, hname, Bool.not_false, if_true]
  exact ⟨_, rfl⟩

/-- The lines of parameters of which one is named like a type. -/
theorem fails_params {ps : List Param} (hps : ∀ p ∈ ps, p.WellFormed)
    (hbad : ¬ ∀ p ∈ ps, p.range = none → p.name ∉ typeWords)
    (h : bytes (String.join (ps.map Param.line)) ++ c <:+ clean) :
    Fails clean module ⟨ports, params, bytes (String.join (ps.map Param.line)) ++ c⟩ := by
  induction ps generalizing params with
  | nil => exact absurd (by simp) hbad
  | cons p ps ih =>
    rw [List.map_cons, String.join_cons, Text.bytes_append, List.append_assoc] at h ⊢
    by_cases htyped : p.range = none → p.name ∉ typeWords
    · have hp : p.Readable := ⟨hps p List.mem_cons_self, htyped⟩
      refine (reaches_param hp h).fails (ih (fun q hq => hps q (List.mem_cons_of_mem _ hq)) ?_
        (behind h))
      exact fun hall => hbad (List.forall_mem_cons.2 ⟨htyped, hall⟩)
    · rw [Classical.not_imp, not_not] at htyped
      exact fails_param htyped.1 htyped.2 h

/-! ### Ports -/

theorem direction_keyword (d : Direction) : isWordText d.keyword = true ∧
    (d.keyword == "endmodule") = false ∧
    (d.keyword == "function" || d.keyword == "task") = false ∧
    (d.keyword == "parameter" || d.keyword == "localparam") = false ∧
    (d.keyword == ",") = false ∧ (d.keyword == ";") = false := by
  cases d <;> decide

theorem declare?_names {name : String} {type : Direction × Option BitRange}
    {ds ds' : List PortDecl} (h : declare? name type ds = some ds') :
    ds'.map PortDecl.name = ds.map PortDecl.name := by
  induction ds generalizing ds' with
  | nil => cases h
  | cons d ds ih =>
    rw [declare?] at h
    split at h
    · rename_i es hes
      cases h
      rw [List.map_cons, List.map_cons, ih hes]
    · split at h
      · cases h
        rfl
      · cases h

theorem declare?_isSome {name : String} {type : Direction × Option BitRange} {ds : List PortDecl} :
    (declare? name type ds).isSome = true ↔ name ∈ ds.map PortDecl.name := by
  induction ds with
  | nil => simp [declare?]
  | cons d ds ih =>
    rw [declare?, List.map_cons, List.mem_cons, ← ih]
    cases hds : declare? name type ds with
    | some es => simp
    | none =>
      simp only [Option.isSome_none, Bool.false_eq_true, or_false]
      split
      · rename_i hname
        simp [eq_of_beq hname]
      · rename_i hname
        rw [beq_iff_eq] at hname
        simp [Ne.symm hname]

/-- A port without a range that is named like a type. -/
theorem fails_port_typed {p : Port} (hdirection : p.direction ≠ .unknown) (hrange : p.range = none)
    (htype : p.name ∈ typeWords) (hports : ∀ d ∈ ports, IsName d.name)
    (h : bytes p.line ++ c <:+ clean) :
    Fails clean module ⟨ports, params, bytes p.line ++ c⟩ := by
  have hnone : bytes (rangeSuffix none) = [] := rfl
  rw [bytes_portLine, hrange, hnone, List.nil_append] at h ⊢
  obtain ⟨hkeyword, hwords⟩ := direction_keyword p.direction
  have h₁ := behind h
  have h₂ := behind h₁
  have h₃ := behind h₂
  have hleft := (left_blank (blanks 2) h).trans
    (left_word hkeyword (opens_text_append (s := " ") (by decide) _) h₁)
  rw [left_space h₂, left_word (isWordText_typeWord htype) (opens_text_append (by decide) _) h₃,
    left_mark (by decide) (behind h₃)] at hleft
  have hundeclared : declare? ";" (p.direction, none) ports = none := by
    rw [← Option.not_isSome_iff_eq_none, declare?_isSome]
    intro hmem
    obtain ⟨d, hd, hname⟩ := List.mem_map.1 hmem
    exact absurd (hports d hd).name (by rw [hname]; decide)
  refine .of_step hleft fun fuel => ?_
  rw [body]
  simp only [tokenAt_text, hwords, Bool.false_eq_true, if_false, direction?_keyword hdirection]
  rw [typeAndRange_typeWord htype (by decide) (by decide)]
  simp only [bind, Except.bind, declaredNames, tokenAt_text, hundeclared]
  exact ⟨_, rfl⟩

/-- A port with an escaped identifier for a name takes in the semicolon behind it. -/
theorem fails_port_escaped {p : Port} (hp : p.WellFormed) (hescaped : isEscaped p.name = true)
    (hnext : p.name ++ ";" ∈ ports.map PortDecl.name →
      ∃ t ts, left clean c = t :: ts ∧ (t.text == ",") = false ∧ (t.text == ";") = false)
    (h : bytes p.line ++ c <:+ clean) :
    Fails clean module ⟨ports, params, bytes p.line ++ c⟩ := by
  obtain ⟨hname, hescaped'⟩ := isName_escaped_append (t := ";") hescaped (by decide)
  have htext : bytes p.line ++ c = List.replicate 2 32 ++ (bytes p.direction.keyword ++
      (bytes (rangeSuffix p.range) ++ (bytes " " ++ (bytes (p.name ++ ";") ++
        (bytes "\n" ++ c))))) := by
    rw [bytes_portLine, Text.bytes_append, List.append_assoc]
  rw [htext] at h ⊢
  obtain ⟨hkeyword, hwords⟩ := direction_keyword p.direction
  have hline := behind (behind (behind (behind h)))
  have hnameToken := left_name hname (fun y hy => by cases hy; decide) hline
  have hnot : p.name ++ ";" ∉ typeWords := by
    have hall : ∀ w ∈ typeWords, isEscaped w = false := by decide
    exact fun hmem => escaped_ne hescaped' (hall _ hmem) rfl
  obtain ⟨hrange, -⟩ := typeAndRange_read hp.range hname.name (fun _ => hnot) hnameToken
    (behind (behind h))
  rw [hnameToken, left_newline (behind hline)] at hrange
  have hleft := (left_blank (blanks 2) h).trans
    (left_word hkeyword (opens_rangeSuffix _ _) (behind h))
  refine .of_step hleft fun fuel => ?_
  rw [body]
  simp only [tokenAt_text, hwords, Bool.false_eq_true, if_false, direction?_keyword hp.direction,
    hrange]
  simp only [bind, Except.bind, List.length_cons, declaredNames, tokenAt_text]
  cases hdeclare : declare? (p.name ++ ";") (p.direction, p.range) ports with
  | none => exact ⟨_, rfl⟩
  | some ports' =>
    obtain ⟨t, ts, ht, hcomma, hsemicolon⟩ :=
      hnext (declare?_isSome.1 (by rw [hdeclare]; rfl))
    simp only [ht, headText, hcomma, Bool.false_eq_true, if_false, expect, hsemicolon]
    exact ⟨_, rfl⟩

/-- The lines of ports of which one is an escaped identifier or named like a type.  Only the last
name of the header can end in a semicolon. -/
theorem fails_ports {ps : List Port} (hps : ∀ p ∈ ps, p.WellFormed)
    (hbad : ¬ ∀ p ∈ ps, isEscaped p.name = false ∧ (p.range = none → p.name ∉ typeWords))
    (hnames : ∀ n ∈ ports.map PortDecl.name, IsName n)
    (hlisted : ∀ p ∈ ps, isEscaped p.name = false → p.name ∈ ports.map PortDecl.name)
    (hlast : ∀ n, n ++ ";" ∈ ports.map PortDecl.name → ∃ z ∈ ps.getLast?, z.name = n ++ ";")
    (h : bytes (String.join (ps.map Port.line)) ++ c <:+ clean) :
    Fails clean module ⟨ports, params, bytes (String.join (ps.map Port.line)) ++ c⟩ := by
  induction ps generalizing ports with
  | nil => exact absurd (by simp) hbad
  | cons p ps ih =>
    have hp := hps p List.mem_cons_self
    rw [List.map_cons, String.join_cons, Text.bytes_append, List.append_assoc] at h ⊢
    cases hescaped : isEscaped p.name with
    | true =>
      refine fails_port_escaped hp hescaped (fun hmem => ?_) h
      obtain ⟨z, hz, hname⟩ := hlast p.name hmem
      cases ps with
      | nil =>
        cases hz
        have hlength := congrArg String.length hname
        rw [String.length_append] at hlength
        exact absurd hlength (by simp)
      | cons q ps =>
        -- the next line is a port as well
        obtain ⟨hkeyword, -, -, -, hcomma, hsemicolon⟩ := direction_keyword q.direction
        have hnext := behind h
        rw [List.map_cons, String.join_cons, Text.bytes_append, List.append_assoc,
          bytes_portLine] at hnext ⊢
        rw [left_blank (blanks 2) hnext, left_word hkeyword (opens_rangeSuffix _ _) (behind hnext)]
        exact ⟨_, _, rfl, by rw [tokenAt_text, hcomma], by rw [tokenAt_text, hsemicolon]⟩
    | false =>
      by_cases htyped : p.range = none → p.name ∉ typeWords
      · have hmem := hlisted p List.mem_cons_self hescaped
        have hsome : (declare? p.name (p.direction, p.range) ports).isSome = true :=
          declare?_isSome.2 hmem
        obtain ⟨ports', hdeclare⟩ := Option.isSome_iff_exists.1 hsome
        have hsame := declare?_names hdeclare
        have hrest : ¬ ∀ q ∈ ps, isEscaped q.name = false ∧ (q.range = none → q.name ∉ typeWords) :=
          fun hall => hbad (List.forall_mem_cons.2 ⟨⟨hescaped, htyped⟩, hall⟩)
        refine (reaches_port ⟨hp, hescaped, htyped⟩ hdeclare h).fails (ih
          (fun q hq => hps q (List.mem_cons_of_mem _ hq)) hrest (hsame ▸ hnames)
          (fun q hq => hsame ▸ hlisted q (List.mem_cons_of_mem _ hq)) (fun n hn => ?_) (behind h))
        obtain ⟨z, hz, hname⟩ := hlast n (hsame ▸ hn)
        cases ps with
        | nil => exact absurd (by simp) hrest
        | cons q ps => exact ⟨z, by rwa [List.getLast?_cons_cons] at hz, hname⟩
      · rw [Classical.not_imp, not_not] at htyped
        exact fails_port_typed hp.direction htyped.1 htyped.2
          (fun d hd => hnames _ (List.mem_map_of_mem hd)) h

end

section
variable {names : List String}

theorem isName_headerNames (h : ∀ n ∈ names, IsName n) : ∀ n ∈ headerNames names, IsName n := by
  induction names using headerNames.induct with
  | case1 => exact h
  | case2 s => exact h
  | case3 s t rest ih =>
    obtain ⟨hs, hrest⟩ := List.forall_mem_cons.1 h
    refine List.forall_mem_cons.2 ⟨?_, ih hrest⟩
    split
    · rename_i hescaped
      exact (isName_escaped_append hescaped (by decide)).1
    · exact hs

theorem mem_headerNames {n : String} (hn : n ∈ names) (hplain : isEscaped n = false) :
    n ∈ headerNames names := by
  induction names using headerNames.induct with
  | case1 => exact hn
  | case2 s => exact hn
  | case3 s t rest ih =>
    rw [headerNames]
    rcases List.mem_cons.1 hn with rfl | hn
    · rw [hplain]
      exact List.mem_cons_self
    · exact List.mem_cons_of_mem _ (ih hn)

theorem not_word_semicolon (n : String) : isWordText (n ++ ";") = false := by
  have hsemicolon : bytes ";" = [ascii ';'] := by decide
  rw [isWordText, Text.bytes_append, hsemicolon]
  cases bytes n with
  | nil => decide
  | cons b l =>
    have hnot : continuesWord (ascii ';') = false := by decide
    simp only [List.cons_append, List.all_append, List.all_cons, hnot, Bool.false_and,
      Bool.and_false]

/-- Only the last name of a header can end in a semicolon: it would take in the comma otherwise. -/
theorem last_of_semicolon (h : ∀ n ∈ names, IsName n) {n : String}
    (hn : n ++ ";" ∈ headerNames names) : names.getLast? = some (n ++ ";") := by
  induction names using headerNames.induct with
  | case1 => cases hn
  | case2 s => rw [List.mem_singleton.1 hn, List.getLast?_singleton]
  | case3 s t rest ih =>
    obtain ⟨hs, hrest⟩ := List.forall_mem_cons.1 h
    rw [List.getLast?_cons_cons]
    rcases List.mem_cons.1 hn with hhead | hn
    · exfalso
      split at hhead
      · have hlast := congrArg (fun s : String => s.toList.getLast?) hhead
        simp only [String.toList_append] at hlast
        rw [List.getLast?_append_of_ne_nil _ (by decide),
          List.getLast?_append_of_ne_nil _ (by decide)] at hlast
        exact absurd hlast (by decide)
      · rename_i hescaped
        have hword := hs.word (Bool.eq_false_iff.2 hescaped)
        rw [← hhead, not_word_semicolon] at hword
        cases hword
    · exact ih hrest hn

end

section
variable {m : Module}

/-- The body of a module that is not readable. -/
theorem body_misread {clean inside : List UInt8} (hw : m.WellFormed) (hbad : ¬ m.Readable)
    (h : behindHeader m inside <:+ clean) :
    ∃ e, body clean m.name ((left clean (behindHeader m inside)).length + 1)
      ((headerNames (m.ports.map Port.name)).map (⟨·, none⟩)) []
      (left clean (behindHeader m inside)) = .error e := by
  have h₁ := behind h
  have h₂ := behind h₁
  have hnames : ∀ n ∈ m.ports.map Port.name, IsName n :=
    List.forall_mem_map.2 fun p hmem => (hw.ports p hmem).name
  have hlisted : ((headerNames (m.ports.map Port.name)).map (⟨·, none⟩ : String → PortDecl)).map
      PortDecl.name = headerNames (m.ports.map Port.name) := by
    rw [List.map_map]
    exact List.map_id _
  have hread : Fails clean m.name ⟨(headerNames (m.ports.map Port.name)).map (⟨·, none⟩), [],
      behindHeader m inside⟩ := by
    refine (reaches_blank (List.all_eq_true.1 (by decide)) h).fails ?_
    by_cases hparams : ∀ q ∈ m.params, q.range = none → q.name ∉ typeWords
    · refine (reaches_params (fun q hq => ⟨hw.params q hq, hparams q hq⟩) h₁).fails ?_
      refine fails_ports hw.ports (fun hports => hbad ?_) ?_ ?_ ?_ h₂
      · exact ⟨hw, fun p hp => (hports p hp).1, fun p hp => (hports p hp).2, hparams⟩
      · rw [hlisted]
        exact isName_headerNames hnames
      · rw [hlisted]
        exact fun p hp hplain => mem_headerNames (List.mem_map_of_mem hp) hplain
      · rw [hlisted]
        intro n hn
        have hlast := last_of_semicolon hnames hn
        rw [List.getLast?_map] at hlast
        exact Option.map_eq_some_iff.1 hlast
    · exact fails_params hw.params hparams h₁
  exact hread _ (Nat.lt_succ_self _)

/-- The text of a module that is not readable is no source. -/
theorem parse_misread (hverbatim : m.verbatim = "") (hw : m.WellFormed) (hbad : ¬ m.Readable)
    (hinert : Inert (bytes (insideText m))) : ∃ e, Source.parse m.render = .error e := by
  obtain ⟨inside, -, hclean, -, htokens⟩ := exists_framed hverbatim hw hinert
  obtain ⟨e, he⟩ := body_misread hw hbad (behindHeader_suffix m inside)
  rw [Source.parse, hclean, htokens]
  simp only [modulesFrom, tokenAt_text, beq_self_eq_true, Bool.true_or, if_true,
    moduleParts_header hw, he, Except.map, Except.mapError, bind, Except.bind]
  exact ⟨_, rfl⟩

end

end TaskLoom.Source
