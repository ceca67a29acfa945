import TaskLoom.Proofs.Hdl.Items
import TaskLoom.Proofs.Hdl.Reading

/-!
# Rendering and reading back

A module that was built item by item and whose texts are legible is read back from its own text:
`parse_render`.  The text is taken apart into the frame of the module, which is read declaration by
declaration, and its inside, which is skipped (`moduleParts_framed`).  The declarations that were
read are added to an empty module, where their names are new (`toModule_read`).
-/

namespace TaskLoom

open Source
open Text (bytes)

/-- The modules that grow from an empty one.  An item that cannot be added leaves the module as it
is, so that only those count that were added. -/
inductive Module.Built (name : String) : Module → Prop where
  | empty : Built name (.new name)
  | add {m m' : Module} {item : Item} (h : Built name m) (hadd : m.add item = .ok m') :
    Built name m'

theorem Module.Built.addAll {name : String} {m m' : Module} {items : List Item} (h : m.Built name)
    (hadd : m.addAll items = .ok m') : m'.Built name := by
  induction items generalizing m with
  | nil =>
    obtain rfl := Except.ok.inj hadd
    exact h
  | cons i items ih =>
    obtain ⟨m₁, h₁, h₂⟩ := Module.addAll_cons.1 hadd
    exact ih (h.add h₁) h₂

theorem Module.Built.verbatim {name : String} {m : Module} (h : m.Built name) :
    m.verbatim = "" := by
  induction h with
  | empty => rfl
  | @add m m' item _ hadd ih =>
    rw [(Module.add_ok hadd).1]
    cases item <;> exact ih

theorem Module.Built.tallied {name : String} {m : Module} (h : m.Built name) : m.Tallied := by
  induction h with
  | empty => exact .refl _
  | add _ hadd ih =>
    rw [(Module.add_ok hadd).1]
    exact ih.push _

/-- The names of the ports and parameters of a module that was built are pairwise different. -/
theorem Module.Built.nodup {name : String} {m : Module} (h : m.Built name) :
    (m.ports.map Port.name ++ m.params.map Param.name).Nodup := by
  induction h with
  | empty => simp
  | @add m m' item hbuilt hadd ih =>
    obtain ⟨rfl, hfresh⟩ := Module.add_ok hadd
    have hnew (n : String) (hn : item.name? = some n) :
        n ∉ m.ports.map Port.name ++ m.params.map Param.name := by
      have hdeclared := (hfresh n hn).2
      rw [← Bool.not_eq_true, hbuilt.tallied.declared_iff] at hdeclared
      refine fun hmem => hdeclared ?_
      simpa [Module.names, Module.declarations, ← or_assoc] using .inl (.inl (by simpa using hmem))
    cases item with
    | port p =>
      have hperm : ((m.ports ++ [p]).map Port.name ++ m.params.map Param.name).Perm
          (p.name :: (m.ports.map Port.name ++ m.params.map Param.name)) := by
        simp
      exact hperm.nodup_iff.2 (List.nodup_cons.2 ⟨hnew p.name rfl, ih⟩)
    | param p =>
      have hperm : (m.ports.map Port.name ++ (m.params ++ [p]).map Param.name).Perm
          (p.name :: (m.ports.map Port.name ++ m.params.map Param.name)) := by
        rw [List.map_append, List.map_singleton, ← List.append_assoc]
        exact List.perm_append_singleton _ _
      exact hperm.nodup_iff.2 (List.nodup_cons.2 ⟨hnew p.name rfl, ih⟩)
    | signal s => exact ih
    | cell c => exact ih
    | logic l => exact ih

namespace Source

theorem addPorts_typed (m : Module) (ps : List Port) :
    addPorts m (ps.map PortDecl.typed) = (m.addAll (ps.map .port)).mapError .build := by
  induction ps generalizing m with
  | nil => rfl
  | cons p ps ih =>
    simp only [List.map_cons, addPorts, PortDecl.typed, Module.addAll, Module.addUntil]
    cases m.add (.port p) with
    | ok m' => exact ih m'
    | error e => rfl

/-- The ports and parameters that were read make a module, since their names are new. -/
theorem toModule_read {ports : List Port} {params : List Param} (name verbatim : String)
    (stop : Nat) (hports : ∀ p ∈ ports, isNameText p.name = true)
    (hparams : ∀ q ∈ params, isNameText q.name = true)
    (hnodup : (ports.map Port.name ++ params.map Param.name).Nodup) :
    toModule name verbatim ⟨ports.map PortDecl.typed, params, stop⟩ =
      .ok (.ofInterface name verbatim ports params) := by
  have hnames : namesOf (ports.map .port ++ params.map .param) =
      ports.map Port.name ++ params.map Param.name := by
    simp [namesOf, List.filterMap_map, Function.comp_def, Item.name?, Item.declares?]
  have hfresh : ∀ n ∈ namesOf (ports.map .port ++ params.map .param),
      n ≠ "" ∧ (Module.new name).declared n = false := by
    rw [hnames]
    intro n hn
    refine ⟨?_, rfl⟩
    rintro rfl
    rcases List.mem_append.1 hn with hn | hn
    · obtain ⟨p, hp, he⟩ := List.mem_map.1 hn
      exact absurd (hports p hp) (by rw [he]; decide)
    · obtain ⟨q, hq, he⟩ := List.mem_map.1 hn
      exact absurd (hparams q hq) (by rw [he]; decide)
  have hadd := Module.addAll_of_fresh (hnames ▸ hnodup) hfresh
  obtain ⟨m, hm, hm'⟩ := Module.addAll_append.1 hadd
  rw [Module.pushAll_interface] at hm'
  simp only [toModule, addPorts_typed, hm, hm', Except.mapError, bind, Except.bind, pure,
    Except.pure]
  rfl

/-! ### The frame of a module -/

/-- The text of a module behind its header, with some text for its inside. -/
def behindHeader (m : Module) (inside : List UInt8) : List UInt8 :=
  bytes "\n\n" ++ (bytes (String.join (m.params.map Param.line)) ++
    (bytes (String.join (m.ports.map Port.line)) ++ (inside ++ (bytes "endmodule" ++ bytes "\n"))))

/-- The text of a module behind its keyword. -/
def behindKeyword (m : Module) (inside : List UInt8) : List UInt8 :=
  bytes " " ++ (bytes m.name ++ (bytes "\n(\n" ++
    (bytes (String.join (commaLines 1 (m.ports.map Port.name))) ++ (bytes ")" ++ (bytes ";" ++
      behindHeader m inside)))))

/-- The text of a module with some text for its inside. -/
def framed (m : Module) (inside : List UInt8) : List UInt8 :=
  bytes "module" ++ behindKeyword m inside

theorem behindHeader_suffix (m : Module) (inside : List UInt8) :
    behindHeader m inside <:+ framed m inside := by
  have h₀ : bytes "module" ++ behindKeyword m inside <:+ framed m inside := List.suffix_refl _
  exact behind (behind (behind (behind (behind (behind (behind h₀))))))

theorem bytes_lines (m : Module) :
    bytes (String.join m.lines) = framed m (bytes (insideText m)) := by
  have hopening : bytes "\n(\n" = bytes "\n" ++ (bytes "(" ++ bytes "\n") := by decide
  have hclosing : bytes ");" = bytes ")" ++ bytes ";" := by decide
  have hkeyword : bytes "module " = bytes "module" ++ bytes " " := by decide
  have hblank : bytes "\n\n" = bytes "\n" ++ bytes "\n" := by decide
  simp only [Module.lines, framed, behindKeyword, behindHeader, insideText, String.join_append,
    String.join_cons, String.join_nil, Text.bytes_append, bytes_indented, blankLine, hopening,
    hclosing, hkeyword, hblank, Nat.mul_zero, List.replicate_zero, List.nil_append,
    List.append_assoc]
  simp [Text.bytes]

theorem Erases.strip_eq {s s' : List UInt8} (h : Erases s s') : strip s = s' := by
  obtain ⟨start, hs⟩ := h.2 true [] (by simp [Safe])
  rw [List.append_nil] at hs
  rw [strip, hs, stripFrom, List.append_nil]

theorem kept_join {ss : List String} (h : ∀ s ∈ ss, Kept (bytes s)) :
    Kept (bytes (String.join ss)) := by
  induction ss with
  | nil => exact Kept.nil
  | cons s ss ih =>
    rw [String.join_cons, Text.bytes_append]
    exact (h s List.mem_cons_self).append (ih fun t ht => h t (List.mem_cons_of_mem _ ht))

theorem kept_blanks (n : Nat) : Kept (List.replicate n (32 : UInt8)) := (firm_blanks n).toKept

theorem kept_paramLine {p : Param} (hname : isPlainName p.name = true) (hvalue : IsText p.value)
    (hr : RangeOf IsText p.range) : Kept (bytes p.line) := by
  have hkeyword : Kept (bytes (paramKeyword p.isLocal)) := by
    cases p.isLocal <;> exact kept_text (by decide)
  have hassigned : Kept (bytes (" = " ++ p.value ++ ";")) := by
    refine ⟨?_, (hvalue.enclosed (unmarked_text (by decide)) (by decide) (by decide)).erases⟩
    rw [Text.bytes_append, Text.bytes_append, List.append_assoc]
    exact (kept_text (by decide)).safe.append_left (by decide) _
  have hline := (kept_blanks 2).append (hkeyword.append ((kept_rangeSuffix hr).append
    (separator_space.toKept.append ((Phrase.of_name hname).toKept.append
      (hassigned.append separator_newline.toKept)))))
  have htext := bytes_paramLine p []
  rw [List.append_nil, List.append_nil] at htext
  rw [htext]
  simpa only [Text.bytes_append, List.append_assoc] using hline

theorem kept_portLine {p : Port} (hname : isPlainName p.name = true)
    (hr : RangeOf IsText p.range) : Kept (bytes p.line) := by
  have hkeyword : Kept (bytes p.direction.keyword) := by
    cases p.direction <;> exact kept_text (by decide)
  have hend : Kept (bytes ";" ++ bytes "\n") :=
    separator_semicolon.toKept.append separator_newline.toKept
  have hline := (kept_blanks 2).append (hkeyword.append ((kept_rangeSuffix hr).append
    (separator_space.toKept.append ((Phrase.of_name hname).toKept.append hend))))
  have htext := bytes_portLine p []
  rw [List.append_nil, List.append_nil] at htext
  rwa [htext]

theorem Kept.before {l s s' : List UInt8} (hl : Kept l) (h : Safe s ∧ Erases s s') :
    Safe (l ++ s) ∧ Erases (l ++ s) (l ++ s') :=
  ⟨hl.safe.append h.1, hl.erases.append h.2 h.1⟩

theorem kept_commaLines {ss : List String} (h : ∀ s ∈ ss, Kept (bytes s)) (depth : Nat) :
    ∀ l ∈ commaLines depth ss, Kept (bytes l) := by
  have hline {s : String} (hs : Kept (bytes s)) : Kept (bytes (indented depth s)) := by
    rw [bytes_indented, List.append_assoc]
    exact (kept_blanks _).append (hs.append separator_newline.toKept)
  induction ss using commaLines.induct with
  | case1 => simp [commaLines]
  | case2 s =>
    intro l hl
    rw [List.mem_singleton.1 hl]
    exact hline (h s List.mem_cons_self)
  | case3 s t rest ih =>
    intro l hl
    rcases List.mem_cons.1 hl with rfl | hl
    · refine hline ?_
      rw [Text.bytes_append]
      exact (h s List.mem_cons_self).append separator_comma.toKept
    · exact ih (fun u hu => h u (List.mem_cons_of_mem _ hu)) l hl

end Source

/-- A module whose texts are read where they stand, and stay as they are when the source is blanked
out. -/
structure Module.WellFormed (m : Module) : Prop where
  name : IsName m.name
  ports : ∀ p ∈ m.ports, p.WellFormed
  params : ∀ q ∈ m.params, q.WellFormed
  keptName : Kept (bytes ("module " ++ m.name))
  keptNames : ∀ p ∈ m.ports, Kept (bytes p.name)
  keptPorts : ∀ p ∈ m.ports, Kept (bytes p.line)
  keptParams : ∀ q ∈ m.params, Kept (bytes q.line)

/-- A module whose name and declarations are read back. -/
structure Module.Readable (m : Module) : Prop extends m.WellFormed where
  plain : ∀ p ∈ m.ports, isEscaped p.name = false
  typedPorts : ∀ p ∈ m.ports, p.range = none → p.name ∉ typeWords
  typedParams : ∀ q ∈ m.params, q.range = none → q.name ∉ typeWords

theorem Module.Readable.port {m : Module} (h : m.Readable) : ∀ p ∈ m.ports, p.Readable :=
  fun p hp => ⟨h.ports p hp, h.plain p hp, h.typedPorts p hp⟩

theorem Module.Readable.param {m : Module} (h : m.Readable) : ∀ q ∈ m.params, q.Readable :=
  fun q hq => ⟨h.params q hq, h.typedParams q hq⟩

theorem Module.Plain.readable {m : Module} (hp : m.Plain) (hl : m.Legible) : m.Readable where
  name := .of_plain hp.name
  ports := by
    intro p hmem
    obtain ⟨hname, hdir, hrange⟩ := hp.ports p hmem
    exact ⟨.of_plain hname, hdir, (hrange.isBound (hl.ports p hmem)).isRange⟩
  params := by
    intro q hmem
    obtain ⟨hname, hvalue, hrange⟩ := hp.params q hmem
    obtain ⟨hends, hends'⟩ := hl.params q hmem
    exact ⟨.of_plain hname, IsBound.isValue ⟨hvalue, hends⟩, (hrange.isBound hends').isRange⟩
  keptName := by
    rw [Text.bytes_append]
    exact (kept_text (by decide)).append (Phrase.of_name hp.name).toKept
  keptNames := fun p hmem => (Phrase.of_name (hp.ports p hmem).1).toKept
  keptPorts := by
    intro p hmem
    obtain ⟨hname, -, hrange⟩ := hp.ports p hmem
    exact kept_portLine hname hrange
  keptParams := by
    intro q hmem
    obtain ⟨hname, hvalue, hrange⟩ := hp.params q hmem
    exact kept_paramLine hname hvalue hrange
  plain := fun p hmem => not_escaped_word (isWordText_name (hp.ports p hmem).1)
  typedPorts := fun p hmem _ => not_typeWord (hp.ports p hmem).1
  typedParams := fun q hmem _ => not_typeWord (hp.params q hmem).1

namespace Source

section
variable {m : Module} {inside : List UInt8}

/-- Blanking out changes the inside of a module and leaves its frame. -/
theorem strip_framed {inside' : List UInt8} (hw : m.WellFormed) (hsafe : Safe inside)
    (h : Erases inside inside') : strip (framed m inside) = framed m inside' := by
  have htext (s : String) (hs : (bytes s).all isOrdinary = true) : Kept (bytes s) := kept_text hs
  have hnames : Kept (bytes (String.join (commaLines 1 (m.ports.map Port.name)))) := by
    refine kept_join (kept_commaLines (fun n hn => ?_) 1)
    obtain ⟨p, hp, rfl⟩ := List.mem_map.1 hn
    exact hw.keptNames p hp
  have hparams : Kept (bytes (String.join (m.params.map Param.line))) :=
    kept_join (List.forall_mem_map.2 hw.keptParams)
  have hports : Kept (bytes (String.join (m.ports.map Port.line))) :=
    kept_join (List.forall_mem_map.2 hw.keptPorts)
  have hend : Kept (bytes "endmodule" ++ bytes "\n") :=
    (htext _ (by decide)).append (htext _ (by decide))
  have hinside : Safe (inside ++ (bytes "endmodule" ++ bytes "\n")) ∧
      Erases (inside ++ (bytes "endmodule" ++ bytes "\n"))
        (inside' ++ (bytes "endmodule" ++ bytes "\n")) :=
    ⟨hsafe.append hend.safe, h.append hend.erases hend.safe⟩
  have hbody := (htext "\n\n" (by decide)).before (hparams.before (hports.before hinside))
  have hheader := hnames.before ((htext ")" (by decide)).before
    ((htext ";" (by decide)).before hbody))
  have hfront := (hw.keptName.before ((htext "\n(\n" (by decide)).before hheader)).2.strip_eq
  have hkeyword : bytes "module " = bytes "module" ++ bytes " " := by decide
  simpa only [framed, behindKeyword, behindHeader, Text.bytes_append, hkeyword,
    List.append_assoc] using hfront

/-- The declarations of a body are read, and its inside is skipped. -/
theorem body_framed {clean : List UInt8} (hr : m.Readable)
    (hnodup : (m.ports.map Port.name).Nodup) (hinside : Passes inside)
    (h : behindHeader m inside <:+ clean) :
    body clean m.name ((left clean (behindHeader m inside)).length + 1)
      (m.ports.map PortDecl.untyped) [] (left clean (behindHeader m inside)) =
        .ok (⟨m.ports.map PortDecl.typed, m.params, clean.length - 1⟩, []) := by
  have h₁ := behind h
  have h₂ := behind h₁
  have h₃ := behind h₂
  have h₄ := behind h₃
  have hread : Reaches clean m.name ⟨m.ports.map PortDecl.untyped, [], behindHeader m inside⟩
      ⟨m.ports.map PortDecl.typed, m.params, bytes "endmodule" ++ bytes "\n"⟩ := by
    refine (reaches_blank (List.all_eq_true.1 (by decide)) h).trans ?_
    refine (reaches_params hr.param h₁).trans ?_
    rw [List.nil_append]
    have hdeclared : Reaches clean m.name ⟨[].map PortDecl.typed ++ m.ports.map PortDecl.untyped,
        m.params, _⟩ ⟨([] ++ m.ports).map PortDecl.typed, m.params, _⟩ :=
      reaches_ports hr.port hnodup h₂
    exact hdeclared.trans (reaches_passes hinside h₃)
  obtain ⟨fuel, hfuel, hbody⟩ := hread _ (Nat.lt_succ_self _)
  obtain ⟨fuel, rfl⟩ : ∃ k, fuel = k + 1 := ⟨fuel - 1, by omega⟩
  have hnothing : left clean (bytes "\n") = [] := by
    have hblank := left_newline (c := []) ((List.append_nil (bytes "\n")).symm ▸ behind h₄)
    rwa [List.append_nil] at hblank
  refine hbody.trans ?_
  rw [body_end separator_newline.opens h₄, hnothing]
  rfl

/-- The header of a module is read, up to its body. -/
theorem moduleParts_header (hw : m.WellFormed) :
    moduleParts (framed m inside) (left (framed m inside) (behindKeyword m inside)) =
      (body (framed m inside) m.name
        ((left (framed m inside) (behindHeader m inside)).length + 1)
        ((headerNames (m.ports.map Port.name)).map (⟨·, none⟩)) []
        (left (framed m inside) (behindHeader m inside))).map fun (b, ts) => ((m.name, b), ts) := by
  have h₀ : bytes "module" ++ behindKeyword m inside <:+ framed m inside := List.suffix_refl _
  generalize framed m inside = clean at h₀ ⊢
  -- the ends of the source before which the reader stands
  have h₁ := behind h₀
  have h₂ := behind h₁
  have h₃ := behind h₂
  have h₄ := behind h₃
  have h₅ := behind h₄
  have h₆ := behind h₅
  have hname := left_name hw.name (fun y hy => by cases hy; decide) h₂
  have hnames : ∀ n ∈ m.ports.map Port.name, IsName n :=
    List.forall_mem_map.2 fun p hmem => (hw.ports p hmem).name
  have hports (c : List UInt8) : portList clean (tokenAt clean "(" c :: left clean
      (bytes (String.join (commaLines 1 (m.ports.map Port.name))) ++ (bytes ")" ++ (bytes ";" ++
        behindHeader m inside)))) =
      .ok ((headerNames (m.ports.map Port.name)).map (⟨·, none⟩),
        left clean (bytes ";" ++ behindHeader m inside)) := by
    simp only [portList, headText, tokenAt_text, beq_self_eq_true, if_true, List.drop_succ_cons,
      List.drop_zero, List.length_cons]
    rw [portNames_read hnames h₄ (by omega)]
  have hblank : left clean (behindKeyword m inside) = _ := left_space h₁
  rw [hblank, hname, left_opening h₃, moduleParts]
  simp only [isName_tokenAt, hw.name.name, Bool.not_true, Bool.false_eq_true, if_false,
    paramList_absent, bind, Except.bind, hports, left_mark (s := ";") (by decide) h₆,
    expect_tokenAt, tokenAt_text]
  cases body clean m.name _ _ _ _ <;> rfl

/-- The frame of a module is read. -/
theorem moduleParts_framed (hr : m.Readable) (hnodup : (m.ports.map Port.name).Nodup)
    (hinside : Passes inside) :
    moduleParts (framed m inside) (left (framed m inside) (behindKeyword m inside)) =
      .ok ((m.name, ⟨m.ports.map PortDecl.typed, m.params, (framed m inside).length - 1⟩), []) := by
  have hnames : headerNames (m.ports.map Port.name) = m.ports.map Port.name :=
    headerNames_plain (List.forall_mem_map.2 hr.plain)
  have huntyped : (m.ports.map Port.name).map (fun n => (⟨n, none⟩ : PortDecl)) =
      m.ports.map PortDecl.untyped := List.map_map
  rw [moduleParts_header hr.toWellFormed, hnames, huntyped,
    body_framed hr hnodup hinside (behindHeader_suffix m inside)]
  rfl

end

end Source

/-! ### Reading back -/

/-- The text of a module is a text without blanks at its ends, and the end of a line. -/
theorem Module.exists_render {m : Module} (h : m.verbatim = "") :
    ∃ s, m.render = s ++ "\n" ∧ Text.trim s = s := by
  obtain ⟨rest, hlines⟩ : ∃ rest, m.lines =
      indented 0 ("module " ++ m.name) :: (rest ++ [indented 0 "endmodule"]) := ⟨_, rfl⟩
  have hindented (s : String) : indented 0 s = s ++ "\n" := by simp [indented]
  refine ⟨"module " ++ m.name ++ "\n" ++ String.join rest ++ "endmodule", ?_, ?_⟩
  · simp [Module.render, h, hlines, hindented, String.append_assoc]
  · refine Text.trim_of_ends (fun c hc => ?_) fun c hc => ?_
    · have hfirst : c = 'm' := by simpa [eq_comm] using hc
      rw [hfirst]
      decide
    · rw [String.toList_append, List.getLast?_append_of_ne_nil _ (by decide)] at hc
      have hlast : c = 'e' := by simpa [eq_comm] using hc
      rw [hlast]
      decide

/-- A module as it is read from its own text: its name, its ports, its parameters, and the text. -/
def Module.asRead (m : Module) : Module :=
  .ofInterface m.name m.render m.ports m.params

/-- The text of a module is its frame, with an inside that is skipped. -/
theorem exists_framed {m : Module} (hverbatim : m.verbatim = "") (hw : m.WellFormed)
    (hinert : Inert (bytes (insideText m))) :
    ∃ inside, Passes inside ∧ strip (bytes m.render) = framed m inside ∧
      (framed m inside).length = (bytes m.render).length ∧
      tokens (framed m inside) = tokenAt (framed m inside) "module" (behindKeyword m inside) ::
        left (framed m inside) (behindKeyword m inside) := by
  obtain ⟨hsafe, inside, herases, hpasses⟩ := hinert
  have hrender : m.render = String.join m.lines := by simp [Module.render, hverbatim]
  refine ⟨inside, hpasses, ?_, ?_, ?_⟩
  · rw [hrender, bytes_lines]
    exact strip_framed hw hsafe herases
  · rw [hrender, bytes_lines]
    simp only [framed, behindKeyword, behindHeader, List.length_append, herases.1]
  · have hopen : Opens (behindKeyword m inside) := opens_text_append (by decide) _
    have hword : left (framed m inside) (framed m inside) = _ :=
      left_word (by decide) hopen (List.suffix_refl (framed m inside))
    rwa [left, Nat.sub_self] at hword

/-- A module whose frame is read back and whose inside is skipped is the only module of its own
text. -/
theorem parse_framed {m : Module} (hverbatim : m.verbatim = "") (hr : m.Readable)
    (hnodup : (m.ports.map Port.name ++ m.params.map Param.name).Nodup)
    (hinert : Inert (bytes (insideText m))) : Source.parse m.render = .ok [m.asRead] := by
  obtain ⟨inside, hpasses, hclean, hlength, htokens⟩ :=
    exists_framed hverbatim hr.toWellFormed hinert
  -- the piece of the source that the module keeps is all of it
  obtain ⟨s, hs, htrim⟩ := Module.exists_render hverbatim
  have hoffset : (tokenAt (framed m inside) "module" (behindKeyword m inside)).offset = 0 :=
    Nat.sub_self _
  have hpiece : ((bytes m.render).drop 0).take ((framed m inside).length - 1 - 0) = bytes s := by
    rw [hlength, hs, Text.bytes_append]
    simp [show bytes "\n" = [newline] by decide]
  rw [Source.parse, hclean, htokens]
  simp only [modulesFrom, tokenAt_text, beq_self_eq_true, Bool.true_or, if_true,
    moduleParts_framed hr (List.nodup_append.1 hnodup).1 hpasses, Except.mapError, bind,
    Except.bind, hoffset, hpiece, Text.ofBytes_bytes, htrim, ← hs, List.length_cons]
  rw [toModule_read _ _ _ (fun p hmem => (hr.ports p hmem).name.name)
    (fun q hmem => (hr.params q hmem).name.name) hnodup]
  rfl

/-- A module that was built, with legible texts, is the only module of its own text. -/
theorem parse_render {name : String} {m : Module} (hb : m.Built name) (hp : m.Plain)
    (hl : m.Legible) : Source.parse m.render = .ok [m.asRead] :=
  parse_framed hb.verbatim (hp.readable hl) hb.nodup (inert_inside hp hl)

/-- A module with all kinds of declarations. -/
def stageModule : Module := (Module.new "stage").pushAll
  [.port ⟨"clk", .input, none⟩, .param ⟨"W", "$clog2(\\n + 1)", none, false⟩,
    .port ⟨"out", .output, some ⟨"W - 1", "0"⟩⟩, .param ⟨"Z", "1", some ⟨"3", "0"⟩, true⟩,
    .signal ⟨"held", .reg, some ⟨"W-1", "0"⟩, ["keep = \"endmodule\"", " ) x"]⟩,
    .cell ⟨"fifo", "f0", [⟨"DEPTH", .literal "8'd2"⟩], [⟨"clk", .ident "clk"⟩], ["dont_touch"]⟩,
    .logic (.assign "out" (.all [.ident "held", .const 4 9])),
    .logic (.clocked [.branch (.unary .negation (.ident "clk"))
      [.display "endmodule \"%d\" // \n" [.ident "held"]] []] true)]

theorem parse_render_stage : stageModule.Built "stage" ∧ stageModule.Plain ∧ stageModule.Legible ∧
    Source.parse stageModule.render = .ok [stageModule.asRead] := by
  have hb : stageModule.Built "stage" :=
    Module.Built.empty.addAll (Module.addAll_of_fresh (by decide) (by decide))
  have hp : stageModule.Plain := by decide
  have hl : stageModule.Legible := by decide
  exact ⟨hb, hp, hl, parse_render hb hp hl⟩

/-- The attribute of the signal is none for a reader, who takes its beginning for a wildcard. -/
def openAttribute : Module := (Module.new "early").pushAll
  [.signal ⟨"s", .wire, none, [" ) endmodule"]⟩]

/-- The range of the signal holds a word that ends the module. -/
def endingRange : Module := (Module.new "early").pushAll
  [.signal ⟨"s", .wire, some ⟨"endmodule", "0"⟩, []⟩]

/-- The value of the parameter is an escaped identifier, which takes in the semicolon behind it. -/
def openValue : Module := (Module.new "early").pushAll [.param ⟨"P", "\\x", none, false⟩]

theorem plain_not_enough :
    (openAttribute.Built "early" ∧ openAttribute.Plain ∧
      Source.parse openAttribute.render ≠ .ok [openAttribute.asRead]) ∧
    (endingRange.Built "early" ∧ endingRange.Plain ∧
      Source.parse endingRange.render ≠ .ok [endingRange.asRead]) ∧
    (openValue.Built "early" ∧ openValue.Plain ∧
      Source.parse openValue.render ≠ .ok [openValue.asRead]) := by
  have hbuilt (items : List Item) (h : (namesOf items).Nodup)
      (hnew : ∀ n ∈ namesOf items, n ≠ "" ∧ (Module.new "early").declared n = false) :
      ((Module.new "early").pushAll items).Built "early" :=
    Module.Built.empty.addAll (Module.addAll_of_fresh h hnew)
  have hother (m : Module)
      (h : (Source.parse m.render).toOption.map (List.map Module.verbatim) ≠ some [m.render]) :
      Source.parse m.render ≠ .ok [m.asRead] := by
    intro he
    rw [he] at h
    exact h rfl
  refine ⟨⟨hbuilt _ (by decide) (by decide), by decide, hother _ ?_⟩,
    ⟨hbuilt _ (by decide) (by decide), by decide, hother _ ?_⟩,
    ⟨hbuilt _ (by decide) (by decide), by decide, hother _ ?_⟩⟩
  all_goals decide

end TaskLoom
