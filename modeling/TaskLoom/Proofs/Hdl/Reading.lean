import TaskLoom.Proofs.Hdl.Remainder
import TaskLoom.Proofs.Hdl.Rendered

/-!
# Reading declarations back

Each lemma follows one reader over the text of one construct: a parameter, the port names of a
header, the declaration of a port.  In a body, `Reaches` says how far a reader gets, so that the
lines of the body are read one after the other, and harmless text is skipped (`reaches_passes`).
-/

namespace TaskLoom

open Source

/-- A parameter whose texts are read where they stand in its declaration. -/
structure Param.WellFormed (p : Param) : Prop where
  name : IsName p.name
  value : IsValue p.value
  range : ∀ b ∈ p.range, IsRange b

/-- A parameter whose declaration is read back.  If it has no range, its name must be none of the
words that may stand between the keyword and the range. -/
structure Param.Readable (p : Param) : Prop extends p.WellFormed where
  typed : p.range = none → p.name ∉ typeWords

/-- A port whose texts are read where they stand in its declaration. -/
structure Port.WellFormed (p : Port) : Prop where
  name : IsName p.name
  direction : p.direction ≠ .unknown
  range : ∀ b ∈ p.range, IsRange b

/-- A port whose declaration is read back.  Its name must be a word, since a comma or a semicolon
stands right behind it. -/
structure Port.Readable (p : Port) : Prop extends p.WellFormed where
  plain : isEscaped p.name = false
  typed : p.range = none → p.name ∉ typeWords

namespace Source

open Text (bytes)

/-- The keyword of a parameter. -/
def paramKeyword (isLocal : Bool) : String := if isLocal then "localparam" else "parameter"

theorem bytes_paramLine (p : Param) (c : List UInt8) : bytes p.line ++ c =
    List.replicate 2 32 ++ (bytes (paramKeyword p.isLocal) ++ (bytes (rangeSuffix p.range) ++
      (bytes " " ++ (bytes p.name ++ (bytes " = " ++ (bytes p.value ++ (bytes ";" ++
        (bytes "\n" ++ c)))))))) := by
  rw [Param.line, bytes_indented]
  simp only [Text.bytes_append, List.append_assoc]
  rfl

/-- A header without parameters. -/
theorem paramList_absent (clean c : List UInt8) (ts : List Token) :
    paramList clean (tokenAt clean "(" c :: ts) = .ok ([], tokenAt clean "(" c :: ts) := by
  have hne : ("(" != "#") = true := by decide
  simp only [paramList, headText, tokenAt_text, hne, if_true]
  rfl

section
variable {clean c : List UInt8} {p : Param}

theorem paramGroup_read (hp : p.Readable)
    (h : bytes (paramKeyword p.isLocal) ++ (bytes (rangeSuffix p.range) ++ (bytes " " ++
      (bytes p.name ++ (bytes " = " ++ (bytes p.value ++ (bytes ";" ++ c)))))) <:+ clean) :
    ∃ t ts, left clean (bytes (paramKeyword p.isLocal) ++ (bytes (rangeSuffix p.range) ++
      (bytes " " ++ (bytes p.name ++ (bytes " = " ++ (bytes p.value ++ (bytes ";" ++ c))))))) =
        t :: ts ∧ t.text = paramKeyword p.isLocal ∧
      paramGroup clean false (t :: ts) = .ok ([p], left clean (bytes ";" ++ c)) ∧
      (left clean (bytes ";" ++ c)).length < ts.length := by
  have hkeyword : isWordText (paramKeyword p.isLocal) = true := by
    cases p.isLocal <;> decide
  have hword : (paramKeyword p.isLocal == "parameter" || p.isLocal) = true := by
    cases p.isLocal <;> decide
  have hlocal : (paramKeyword p.isLocal == "localparam") = p.isLocal := by
    cases p.isLocal <;> decide
  -- the text behind the name
  have hequals : bytes " = " = bytes " " ++ (bytes "=" ++ bytes " ") := by decide
  have hblank (rest : List UInt8) : ∀ y ∈ (bytes " = " ++ rest).head?, isSpace y = true := by
    rintro y hy
    rw [hequals] at hy
    cases hy
    decide
  have hnameToken := left_name hp.name (hblank _) (behind (behind (behind h)))
  obtain ⟨hrange, hle⟩ :=
    typeAndRange_read hp.range hp.name.name hp.typed hnameToken (behind h)
  have hrest := behind (behind (behind (behind h)))
  rw [hequals, List.append_assoc, List.append_assoc] at hrest
  obtain ⟨ts, hts, hwords, hspan⟩ := left_piece hp.value.toIsPiece
    (opens_text_append (by decide) _) (behind (behind (behind hrest)))
  have hend := left_mark (s := ";") (by decide) (behind (behind (behind (behind hrest))))
  have hassign : left clean (bytes " = " ++ (bytes p.value ++ (bytes ";" ++ c))) =
      tokenAt clean "=" (bytes " " ++ (bytes p.value ++ (bytes ";" ++ c))) ::
        (ts ++ left clean (bytes ";" ++ c)) := by
    rw [hequals, List.append_assoc, List.append_assoc, left_space hrest,
      left_mark (by decide) (behind hrest), left_space (behind (behind hrest)), hts]
  refine ⟨_, _, left_word hkeyword (opens_rangeSuffix _ _) h, tokenAt_text _ _ _, ?_, ?_⟩
  · rw [paramGroup]
    simp only [headText, tokenAt_text, hword, if_true, List.drop_succ_cons, List.drop_zero, hrange,
      hlocal, hnameToken, hassign]
    simp only [bind, Except.bind, assignments, isName_tokenAt, hp.name.name, expect_tokenAt]
    rw [takeValue_closed (by rw [hwords]; exact hp.value.closed) _
      (by rw [hend, headText, tokenAt_text]; decide), hend]
    simp [headText, hspan]
    rfl
  · rw [hnameToken, hassign] at hle
    simp only [List.length_cons, List.length_append] at hle
    omega

end

theorem bytes_portLine (p : Port) (c : List UInt8) : bytes p.line ++ c =
    List.replicate 2 32 ++ (bytes p.direction.keyword ++ (bytes (rangeSuffix p.range) ++
      (bytes " " ++ (bytes p.name ++ (bytes ";" ++ (bytes "\n" ++ c)))))) := by
  rw [Port.line, bytes_indented]
  simp only [Text.bytes_append, List.append_assoc]

/-- A port of a header whose declaration is still to come. -/
def PortDecl.untyped (p : Port) : PortDecl := ⟨p.name, none⟩

/-- A port of a header with its declaration. -/
def PortDecl.typed (p : Port) : PortDecl := ⟨p.name, some (p.direction, p.range)⟩

theorem blanks (n : Nat) : ∀ b ∈ List.replicate n (32 : UInt8), isSpace b = true := by
  intro b hb
  rw [List.eq_of_mem_replicate hb]
  decide

section
variable {clean c : List UInt8}

/-- The parenthesis of a header, on a line of its own. -/
theorem left_opening (h : bytes "\n(\n" ++ c <:+ clean) :
    left clean (bytes "\n(\n" ++ c) = tokenAt clean "(" (bytes "\n" ++ c) :: left clean c := by
  have hsplit : bytes "\n(\n" = bytes "\n" ++ (bytes "(" ++ bytes "\n") := by decide
  rw [hsplit, List.append_assoc, List.append_assoc] at h ⊢
  rw [left_newline h, left_mark (by decide) (behind h), left_newline (behind (behind h))]

theorem portNames_name {name : String} (h : isNameText name = true) {fuel : Nat}
    {ts rest : List Token} {ds : List PortDecl}
    (hread : portNames clean fuel none ts = .ok (ds, rest)) (d : List UInt8) :
    portNames clean (fuel + 1) none (tokenAt clean name d :: ts) =
      .ok (⟨name, none⟩ :: ds, rest) := by
  have hclose : (name == ")") = false := name_ne h (by decide)
  have hcomma : (name == ",") = false := name_ne h (by decide)
  simp only [portNames, tokenAt_text, hclose, hcomma, direction?_name h, isName_tokenAt, h, hread]
  rfl

/-- The names of a header as they are read: a comma right behind an escaped identifier belongs to
it. -/
def headerNames : List String → List String
  | [] => []
  | [s] => [s]
  | s :: t :: rest => (if isEscaped s then s ++ "," else s) :: headerNames (t :: rest)

theorem headerNames_plain {names : List String} (h : ∀ n ∈ names, isEscaped n = false) :
    headerNames names = names := by
  induction names using headerNames.induct with
  | case1 => rfl
  | case2 s => rfl
  | case3 s t rest ih =>
    rw [headerNames, h s List.mem_cons_self, ih fun n hn => h n (List.mem_cons_of_mem _ hn)]
    rfl

/-- The names of a header. -/
theorem portNames_read {names : List String} (hnames : ∀ n ∈ names, IsName n)
    (h : bytes (String.join (commaLines 1 names)) ++ (bytes ")" ++ c) <:+ clean) {fuel : Nat}
    (hfuel : (left clean (bytes (String.join (commaLines 1 names)) ++ (bytes ")" ++ c))).length <
      fuel) :
    portNames clean fuel none (left clean (bytes (String.join (commaLines 1 names)) ++
      (bytes ")" ++ c))) = .ok ((headerNames names).map (⟨·, none⟩), left clean c) := by
  have hclose (fuel : Nat) (h : bytes ")" ++ c <:+ clean) :
      portNames clean (fuel + 1) none (left clean (bytes ")" ++ c)) = .ok ([], left clean c) := by
    rw [left_mark (by decide) h]
    simp [portNames]
  have hline (s : String) (rest : List UInt8) : bytes (indented 1 s) ++ rest =
      List.replicate 2 32 ++ (bytes s ++ (bytes "\n" ++ rest)) := by
    rw [bytes_indented]
    simp only [List.append_assoc]
  have hblank (rest : List UInt8) : ∀ y ∈ (bytes "\n" ++ rest).head?, isSpace y = true := by
    intro y hy
    cases hy
    decide
  induction names using commaLines.induct generalizing fuel with
  | case1 =>
    obtain ⟨fuel, rfl⟩ : ∃ k, fuel = k + 1 := ⟨fuel - 1, by omega⟩
    exact hclose fuel h
  | case2 s =>
    have hs := hnames s List.mem_cons_self
    have hjoin : bytes (String.join (commaLines 1 [s])) ++ (bytes ")" ++ c) =
        List.replicate 2 32 ++ (bytes s ++ (bytes "\n" ++ (bytes ")" ++ c))) := by
      rw [commaLines, String.join_cons, String.join_nil, String.append_empty, hline]
    rw [hjoin] at h hfuel ⊢
    rw [left_blank (blanks 2) h, left_name hs (hblank _) (behind h),
      left_newline (behind (behind h))] at hfuel ⊢
    rw [left_mark (s := ")") (by decide) (behind (behind (behind h)))] at hfuel
    simp only [List.length_cons] at hfuel
    obtain ⟨fuel, rfl⟩ : ∃ k, fuel = k + 1 + 1 := ⟨fuel - 2, by omega⟩
    exact portNames_name hs.name (hclose fuel (behind (behind (behind h)))) _
  | case3 s t rest ih =>
    have hs := hnames s List.mem_cons_self
    have hjoin : bytes (String.join (commaLines 1 (s :: t :: rest))) ++ (bytes ")" ++ c) =
        List.replicate 2 32 ++ (bytes (s ++ ",") ++ (bytes "\n" ++
          (bytes (String.join (commaLines 1 (t :: rest))) ++ (bytes ")" ++ c)))) := by
      rw [commaLines, String.join_cons, Text.bytes_append, List.append_assoc, hline]
    rw [hjoin] at h hfuel ⊢
    have hnames' : ∀ n ∈ t :: rest, IsName n := fun n hn => hnames n (List.mem_cons_of_mem _ hn)
    have hrest := behind (behind (behind h))
    rw [headerNames, List.map_cons]
    cases hescaped : isEscaped s with
    | true =>
      -- the comma belongs to the name
      have hs' := (isName_escaped_append (t := ",") hescaped (by decide)).1
      rw [left_blank (blanks 2) h, left_name hs' (hblank _) (behind h),
        left_newline (behind (behind h)), List.length_cons] at hfuel
      rw [left_blank (blanks 2) h, left_name hs' (hblank _) (behind h),
        left_newline (behind (behind h))]
      obtain ⟨fuel, rfl⟩ : ∃ k, fuel = k + 1 := ⟨fuel - 1, by omega⟩
      exact portNames_name hs'.name (ih hnames' hrest (by omega)) _
    | false =>
      have hword := hs.word hescaped
      rw [Text.bytes_append, List.append_assoc] at h hfuel ⊢
      rw [left_blank (blanks 2) h, left_word hword (opens_text_append (by decide) _)
        (behind h), left_mark (by decide) (behind (behind h)),
        left_newline (behind (behind (behind h)))] at hfuel ⊢
      simp only [List.length_cons] at hfuel
      obtain ⟨fuel, rfl⟩ : ∃ k, fuel = k + 1 + 1 := ⟨fuel - 2, by omega⟩
      have hfuel' : (left clean (bytes (String.join (commaLines 1 (t :: rest))) ++
          (bytes ")" ++ c))).length < fuel := by omega
      refine portNames_name hs.name ?_ _
      rw [portNames]
      simpa using ih hnames' hrest hfuel'

theorem declare?_absent {name : String} {ds : List PortDecl} (h : ∀ d ∈ ds, d.name ≠ name)
    (type : Direction × Option BitRange) : declare? name type ds = none := by
  induction ds with
  | nil => rfl
  | cons d ds ih =>
    rw [declare?, ih fun d' hd' => h d' (List.mem_cons_of_mem _ hd')]
    simp [h d List.mem_cons_self]

theorem declare?_append {p : Port} {after : List PortDecl} (h : ∀ d ∈ after, d.name ≠ p.name)
    (before : List PortDecl) :
    declare? p.name (p.direction, p.range) (before ++ PortDecl.untyped p :: after) =
      some (before ++ PortDecl.typed p :: after) := by
  induction before with
  | nil =>
    rw [List.nil_append, declare?, declare?_absent h]
    simp [PortDecl.untyped, PortDecl.typed]
  | cons d before ih => rw [List.cons_append, declare?, ih, List.cons_append]

end

/-! ### Bodies -/

/-- A reader inside a body: what it has read, and the end of the source before which it stands. -/
structure Place where
  ports : List PortDecl
  params : List Param
  rest : List UInt8

/-- A reader that stands at one place gets to the other one. -/
def Reaches (clean : List UInt8) (module : String) (a b : Place) : Prop :=
  ∀ fuel, (left clean a.rest).length < fuel → ∃ fuel', (left clean b.rest).length < fuel' ∧
    body clean module fuel a.ports a.params (left clean a.rest) =
      body clean module fuel' b.ports b.params (left clean b.rest)

section
variable {clean l c : List UInt8} {module : String} {ports : List PortDecl} {params : List Param}

theorem Reaches.refl (a : Place) : Reaches clean module a a := fun fuel hfuel => ⟨fuel, hfuel, rfl⟩

theorem Reaches.trans {a b d : Place} (h : Reaches clean module a b)
    (h' : Reaches clean module b d) : Reaches clean module a d := by
  intro fuel hfuel
  obtain ⟨fuel₁, hfuel₁, he₁⟩ := h fuel hfuel
  obtain ⟨fuel₂, hfuel₂, he₂⟩ := h' fuel₁ hfuel₁
  exact ⟨fuel₂, hfuel₂, he₁.trans he₂⟩

/-- One step of the reader, from a token to what is left behind its construct. -/
theorem Reaches.of_step {a b : Place} {t : Token} {ts : List Token}
    (hleft : left clean a.rest = t :: ts) (hle : (left clean b.rest).length ≤ ts.length)
    (hstep : ∀ fuel, body clean module (fuel + 1) a.ports a.params (t :: ts) =
      body clean module fuel b.ports b.params (left clean b.rest)) : Reaches clean module a b := by
  intro fuel hfuel
  rw [hleft, List.length_cons] at hfuel
  obtain ⟨fuel, rfl⟩ : ∃ k, fuel = k + 1 := ⟨fuel - 1, by omega⟩
  exact ⟨fuel, by omega, by rw [hleft, hstep]⟩

theorem reaches_blank (hl : ∀ b ∈ l, isSpace b = true) (h : l ++ c <:+ clean) :
    Reaches clean module ⟨ports, params, l ++ c⟩ ⟨ports, params, c⟩ := by
  intro fuel hfuel
  simp only [left_blank hl h] at hfuel ⊢
  exact ⟨fuel, hfuel, rfl⟩

theorem body_skip {t : Token} (ht : t.text ∉ bodyWords) (fuel : Nat) (ts : List Token) :
    body clean module (fuel + 1) ports params (t :: ts) =
      body clean module fuel ports params ts := by
  simp only [bodyWords, List.mem_cons, List.not_mem_nil, or_false, not_or] at ht
  simp [body, direction?, ht]

/-- Harmless text is skipped. -/
theorem reaches_passes (hl : Passes l) (h : l ++ c <:+ clean) :
    Reaches clean module ⟨ports, params, l ++ c⟩ ⟨ports, params, c⟩ := by
  obtain ⟨ts, hts, hharmless⟩ := hl (clean.length - (l ++ c).length) c
  rw [offset_behind h] at hts
  intro fuel hfuel
  have hleft : left clean (l ++ c) = ts ++ left clean c := hts
  simp only [hleft] at hfuel ⊢
  clear hts hleft
  induction ts generalizing fuel with
  | nil => exact ⟨fuel, hfuel, rfl⟩
  | cons t ts ih =>
    obtain ⟨fuel, rfl⟩ : ∃ k, fuel = k + 1 := ⟨fuel - 1, by omega⟩
    rw [List.cons_append, body_skip (hharmless t List.mem_cons_self)]
    refine ih (fun u hu => hharmless u (List.mem_cons_of_mem _ hu)) fuel ?_
    simp only [List.cons_append, List.length_cons] at hfuel
    omega

theorem reaches_param {p : Param} (hp : p.Readable) (h : bytes p.line ++ c <:+ clean) :
    Reaches clean module ⟨ports, params, bytes p.line ++ c⟩ ⟨ports, params ++ [p], c⟩ := by
  rw [bytes_paramLine] at h ⊢
  obtain ⟨t, ts, hleft, ht, hgroup, hlt⟩ := paramGroup_read hp (behind h)
  have hsemicolon := behind (behind (behind (behind (behind (behind (behind h))))))
  rw [left_mark (by decide) hsemicolon, left_newline (behind hsemicolon)] at hgroup hlt
  rw [List.length_cons] at hlt
  have hwords : (paramKeyword p.isLocal == "endmodule") = false ∧
      (paramKeyword p.isLocal == "function" || paramKeyword p.isLocal == "task") = false ∧
      (paramKeyword p.isLocal == "parameter" || paramKeyword p.isLocal == "localparam") = true := by
    cases p.isLocal <;> decide
  refine .of_step ((left_blank (blanks 2) h).trans hleft) (by simp only; omega) fun fuel => ?_
  rw [body]
  simp only [ht, hwords, if_true, hgroup]
  simp [bind, Except.bind, expect_tokenAt]

theorem reaches_port {p : Port} {ports' : List PortDecl} (hp : p.Readable)
    (hdeclare : declare? p.name (p.direction, p.range) ports = some ports')
    (h : bytes p.line ++ c <:+ clean) :
    Reaches clean module ⟨ports, params, bytes p.line ++ c⟩ ⟨ports', params, c⟩ := by
  rw [bytes_portLine] at h ⊢
  have hkeyword : isWordText p.direction.keyword = true := by
    cases p.direction <;> decide
  have hnameToken := left_word (hp.name.word hp.plain) (opens_text_append (s := ";") (by decide) _)
    (behind (behind (behind (behind h))))
  obtain ⟨hrange, hle⟩ :=
    typeAndRange_read hp.range hp.name.name hp.typed hnameToken (behind (behind h))
  have hsemicolon := behind (behind (behind (behind (behind h))))
  rw [hnameToken, left_mark (by decide) hsemicolon, left_newline (behind hsemicolon)] at hrange hle
  simp only [List.length_cons] at hle
  have hwords : (p.direction.keyword == "endmodule") = false ∧
      (p.direction.keyword == "function" || p.direction.keyword == "task") = false ∧
      (p.direction.keyword == "parameter" || p.direction.keyword == "localparam") = false := by
    cases p.direction <;> decide
  have hcomma : (";" == ",") = false := by decide
  have hleft := (left_blank (blanks 2) h).trans
    (left_word hkeyword (opens_rangeSuffix _ _) (behind h))
  refine .of_step hleft (by simp only; omega) fun fuel => ?_
  rw [body]
  simp only [tokenAt_text, hwords, direction?_keyword hp.direction, hrange]
  simp [bind, Except.bind, declaredNames, hdeclare, headText, hcomma, expect_tokenAt]

/-- The lines of all parameters. -/
theorem reaches_params {ps : List Param} (hps : ∀ p ∈ ps, p.Readable)
    (h : bytes (String.join (ps.map Param.line)) ++ c <:+ clean) :
    Reaches clean module ⟨ports, params, bytes (String.join (ps.map Param.line)) ++ c⟩
      ⟨ports, params ++ ps, c⟩ := by
  induction ps generalizing params with
  | nil =>
    rw [List.append_nil]
    exact .refl _
  | cons p ps ih =>
    rw [List.map_cons, String.join_cons, Text.bytes_append, List.append_assoc] at h ⊢
    have hrest : Reaches clean module ⟨ports, params ++ [p], _⟩ ⟨ports, params ++ [p] ++ ps, c⟩ :=
      ih (fun q hq => hps q (List.mem_cons_of_mem _ hq)) (behind h)
    rw [List.append_assoc, List.singleton_append] at hrest
    exact (reaches_param (hps p List.mem_cons_self) h).trans hrest

/-- The lines of all ports: each one types the port of its name in the header. -/
theorem reaches_ports {before ps : List Port} (hps : ∀ p ∈ ps, p.Readable)
    (hnodup : (ps.map Port.name).Nodup)
    (h : bytes (String.join (ps.map Port.line)) ++ c <:+ clean) :
    Reaches clean module ⟨before.map PortDecl.typed ++ ps.map PortDecl.untyped, params,
      bytes (String.join (ps.map Port.line)) ++ c⟩
      ⟨(before ++ ps).map PortDecl.typed, params, c⟩ := by
  induction ps generalizing before with
  | nil =>
    simp only [List.map_nil, List.append_nil]
    exact .refl _
  | cons p ps ih =>
    rw [List.map_cons, String.join_cons, Text.bytes_append, List.append_assoc] at h
    rw [List.map_cons, List.nodup_cons] at hnodup
    have hlater : ∀ d ∈ ps.map PortDecl.untyped, d.name ≠ p.name := by
      intro d hd he
      obtain ⟨q, hq, rfl⟩ := List.mem_map.1 hd
      exact hnodup.1 (List.mem_map.2 ⟨q, hq, he⟩)
    have hrest : Reaches clean module
        ⟨(before ++ [p]).map PortDecl.typed ++ ps.map PortDecl.untyped, params, _⟩
        ⟨(before ++ [p] ++ ps).map PortDecl.typed, params, c⟩ :=
      ih (fun q hq => hps q (List.mem_cons_of_mem _ hq)) hnodup.2 (behind h)
    simp only [List.map_append, List.map_cons, List.map_nil, List.append_assoc,
      List.singleton_append] at hrest
    simp only [List.map_append, List.map_cons, String.join_cons, Text.bytes_append,
      List.append_assoc]
    exact (reaches_port (hps p List.mem_cons_self) (declare?_append hlater _) h).trans hrest

theorem body_end (hopen : Opens c) (h : bytes "endmodule" ++ c <:+ clean) (fuel : Nat) :
    body clean module (fuel + 1) ports params (left clean (bytes "endmodule" ++ c)) =
      .ok (⟨ports, params, clean.length - c.length⟩, left clean c) := by
  rw [left_word (by decide) hopen h, body]
  simp only [tokenAt_text, beq_self_eq_true, if_true, ← offset_behind h]
  rfl

end

end Source

end TaskLoom
