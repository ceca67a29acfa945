import TaskLoom.Hdl.Source
import Mathlib.Data.List.Infix

/-!
# Readers look at their own tokens only

A reader leaves an end of the tokens that it was given (`Consumes`), and what it does depends on the
tokens that it takes and on the text between them.  So a module that was read in one source is read
in another one that has the same piece somewhere: `moduleParts_moved`.  Two lists of tokens are
`Moved` if they agree, up to their places, as far as the `endmodule` that ends the module.

What an item of a body can do to the ports and the parameters is said once, by `BodyStep`.
-/

namespace TaskLoom.Source

theorem bind_ok {ε α β : Type} {x : Except ε α} {f : α → Except ε β} {b : β} :
    x >>= f = .ok b ↔ ∃ a, x = .ok a ∧ f a = .ok b := by
  cases x with
  | error e => simp [bind, Except.bind]
  | ok a => simp [bind, Except.bind]

theorem toOption_eq_some {ε α : Type} {x : Except ε α} {a : α} :
    x.toOption = some a ↔ x = .ok a := by
  cases x <;> simp [Except.toOption]

/-! ### What a reader leaves -/

/-- The reader takes tokens from the front only. -/
def Consumes {α : Type} (read : Reader α) : Prop :=
  ∀ {ts rest : List Token} {a : α}, read ts = .ok (a, rest) → rest <:+ ts

theorem expect_consumes (want : String) : Consumes (expect want) := by
  intro ts rest a h
  cases ts with
  | nil => cases h
  | cons t ts =>
    rw [expect] at h
    split at h
    · cases h
      exact List.suffix_cons t rest
    · cases h

theorem takeValue_suffix (depth : Nat) (ts : List Token) : (takeValue depth ts).2 <:+ ts := by
  induction ts generalizing depth with
  | nil => exact List.suffix_refl []
  | cons t ts ih =>
    have hgo (d : Nat) : (takeValue d ts).2 <:+ t :: ts := (ih d).trans (List.suffix_cons t ts)
    rw [takeValue]
    split_ifs
    · exact hgo _
    · exact List.suffix_refl _
    · exact hgo _
    · exact List.suffix_refl _
    · exact hgo _

section
variable (clean : List UInt8)

theorem rangeBounds_consumes (depth : Int) (msb : List Token) (lsb : Option (List Token)) :
    Consumes (rangeBounds clean depth msb lsb) := by
  intro ts rest r h
  induction ts generalizing depth msb lsb with
  | nil => cases h
  | cons t ts ih =>
    unfold rangeBounds at h
    simp only at h
    split_ifs at h
    · cases lsb with
      | none => cases h
      | some lsb =>
        cases h
        exact List.suffix_cons t rest
    · exact (ih _ _ _ h).trans (List.suffix_cons t ts)
    all_goals
      cases lsb with
      | none => exact (ih _ _ _ h).trans (List.suffix_cons t ts)
      | some lsb => exact (ih _ _ _ h).trans (List.suffix_cons t ts)

theorem range_consumes : Consumes (range clean) := by
  intro ts rest r h
  cases ts with
  | nil =>
    cases h
    exact List.suffix_refl []
  | cons t ts =>
    rw [range] at h
    split at h
    · obtain ⟨⟨b, us⟩, hb, hr⟩ := bind_ok.1 h
      cases hr
      exact (rangeBounds_consumes clean _ _ _ hb).trans (List.suffix_cons t ts)
    · cases h
      exact List.suffix_refl _

theorem typeAndRange_consumes : Consumes (typeAndRange clean) := by
  intro ts rest r h
  exact (range_consumes clean h).trans (List.dropWhile_suffix _)

theorem assignments_consumes (header isLocal : Bool) (r : Option BitRange) (fuel : Nat) :
    Consumes (assignments clean header isLocal r fuel) := by
  intro ts rest ps h
  induction fuel generalizing ts rest ps with
  | zero =>
    cases h
    exact List.suffix_refl _
  | succ fuel ih =>
    cases ts with
    | nil => cases h
    | cons t ts =>
      rw [assignments] at h
      split at h
      · cases h
      · obtain ⟨⟨⟨⟩, us⟩, hexpect, h⟩ := bind_ok.1 h
        have hvalue := ((takeValue_suffix 0 us).trans (expect_consumes "=" hexpect)).trans
          (List.suffix_cons t ts)
        simp only at h
        split at h
        · cases h
          exact hvalue
        · obtain ⟨⟨qs, vs⟩, hrest, h⟩ := bind_ok.1 h
          cases h
          exact ((ih hrest).trans (List.drop_suffix 1 _)).trans hvalue

theorem assignments_lt {header isLocal : Bool} {r : Option BitRange} {fuel : Nat}
    {ts rest : List Token} {ps : List Param}
    (h : assignments clean header isLocal r (fuel + 1) ts = .ok (ps, rest)) :
    rest.length < ts.length := by
  cases ts with
  | nil => cases h
  | cons t ts =>
    rw [assignments] at h
    split at h
    · cases h
    · obtain ⟨⟨⟨⟩, us⟩, hexpect, h⟩ := bind_ok.1 h
      have hvalue := ((takeValue_suffix 0 us).trans (expect_consumes "=" hexpect)).length_le
      simp only at h
      split at h
      · cases h
        exact Nat.lt_succ_of_le hvalue
      · obtain ⟨⟨qs, vs⟩, hrest, h⟩ := bind_ok.1 h
        cases h
        have hle := ((assignments_consumes _ _ _ _ _ hrest).trans (List.drop_suffix 1 _)).length_le
        exact Nat.lt_succ_of_le (hle.trans hvalue)

theorem paramGroup_consumes (header : Bool) : Consumes (paramGroup clean header) := by
  intro ts rest ps h
  obtain ⟨⟨r, us⟩, hrange, h⟩ := bind_ok.1 h
  have hsuffix := (assignments_consumes clean _ _ _ _ h).trans (typeAndRange_consumes clean hrange)
  refine hsuffix.trans ?_
  split
  · exact List.drop_suffix 1 ts
  · exact List.suffix_refl ts

theorem paramGroup_lt {header : Bool} {ts rest : List Token} {ps : List Param}
    (h : paramGroup clean header ts = .ok (ps, rest)) : rest.length < ts.length := by
  obtain ⟨⟨r, us⟩, hrange, h⟩ := bind_ok.1 h
  refine (assignments_lt clean h).trans_le ((typeAndRange_consumes clean hrange).length_le.trans ?_)
  split
  · exact (List.drop_suffix 1 ts).length_le
  · exact Nat.le_refl _

theorem headerParams_consumes (fuel : Nat) : Consumes (headerParams clean fuel) := by
  intro ts rest ps h
  induction fuel generalizing ts rest ps with
  | zero =>
    cases h
    exact List.suffix_refl _
  | succ fuel ih =>
    rw [headerParams] at h
    simp only at h
    split_ifs at h
    · cases h
      exact List.suffix_refl _
    · exact (ih h).trans (List.drop_suffix 1 ts)
    · obtain ⟨⟨qs, us⟩, hgroup, h⟩ := bind_ok.1 h
      obtain ⟨⟨qs', vs⟩, hrest, h⟩ := bind_ok.1 h
      cases h
      exact (ih hrest).trans (paramGroup_consumes clean true hgroup)

theorem paramList_consumes : Consumes (paramList clean) := by
  intro ts rest ps h
  rw [paramList] at h
  split at h
  · cases h
    exact List.suffix_refl _
  · obtain ⟨⟨⟨⟩, us⟩, hopen, h⟩ := bind_ok.1 h
    obtain ⟨⟨qs, vs⟩, hparams, h⟩ := bind_ok.1 h
    obtain ⟨⟨⟨⟩, ws⟩, hclose, h⟩ := bind_ok.1 h
    cases h
    exact (expect_consumes _ hclose).trans ((headerParams_consumes clean _ hparams).trans
      ((expect_consumes _ hopen).trans (List.drop_suffix 1 ts)))

theorem portNames_consumes (fuel : Nat) (current : Option (Direction × Option BitRange)) :
    Consumes (portNames clean fuel current) := by
  intro ts rest ds h
  induction fuel generalizing ts rest ds current with
  | zero =>
    cases ts with
    | nil => cases h
    | cons t ts =>
      cases h
      exact List.suffix_refl _
  | succ fuel ih =>
    cases ts with
    | nil => cases h
    | cons t ts =>
      rw [portNames] at h
      simp only at h
      split at h
      · cases h
        exact List.suffix_cons t rest
      · split at h
        · exact (ih _ h).trans (List.suffix_cons t ts)
        · split at h
          · obtain ⟨⟨r, us⟩, hrange, h⟩ := bind_ok.1 h
            exact ((ih _ h).trans (typeAndRange_consumes clean hrange)).trans
              (List.suffix_cons t ts)
          · split at h
            · obtain ⟨⟨ds', us⟩, hrest, h⟩ := bind_ok.1 h
              cases h
              exact (ih _ hrest).trans (List.suffix_cons t ts)
            · cases h

theorem portList_consumes : Consumes (portList clean) := by
  intro ts rest ds h
  rw [portList] at h
  split at h
  · exact (portNames_consumes clean _ _ h).trans (List.drop_suffix 1 ts)
  · cases h
    exact List.suffix_refl _

end

theorem declaredNames_consumes (module : String) (type : Direction × Option BitRange) (fuel : Nat)
    (ds : List PortDecl) : Consumes (declaredNames module type fuel ds) := by
  intro ts rest ds' h
  induction fuel generalizing ts rest ds ds' with
  | zero =>
    cases h
    exact List.suffix_refl _
  | succ fuel ih =>
    cases ts with
    | nil => cases h
    | cons t ts =>
      rw [declaredNames] at h
      split at h
      · cases h
      · split at h
        · exact ((ih _ h).trans (List.drop_suffix 1 ts)).trans (List.suffix_cons t ts)
        · cases h
          exact List.suffix_cons t rest

/-- One item of a body: a declaration, a subroutine, which is skipped, or some other token. -/
def bodyItem (clean : List UInt8) (module : String) (ports : List PortDecl) (params : List Param) :
    Reader (List PortDecl × List Param)
  | [] => .error ⟨.missingEnd module, []⟩
  | t :: ts =>
    let word := t.text
    if word == "function" || word == "task" then
      .ok ((ports, params), (ts.dropWhile (·.text != "end" ++ word)).drop 1)
    else if word == "parameter" || word == "localparam" then do
      let (ps, ts) ← paramGroup clean false (t :: ts)
      let ((), ts) ← expect ";" ts
      return ((ports, params ++ ps), ts)
    else match direction? word with
      | some d => do
        let (range, ts) ← typeAndRange clean ts
        let (ports, ts) ← declaredNames module (d, range) (ts.length + 1) ports ts
        let ((), ts) ← expect ";" ts
        return ((ports, params), ts)
      | none => .ok ((ports, params), ts)

section
variable {clean : List UInt8} {module : String} {ports : List PortDecl} {params : List Param}

/-- A body is read item by item. -/
theorem body_cons (fuel : Nat) (t : Token) (ts : List Token) :
    body clean module (fuel + 1) ports params (t :: ts) =
      if t.text == "endmodule" then .ok (⟨ports, params, t.offset + t.bytes.length⟩, ts)
      else bodyItem clean module ports params (t :: ts) >>= fun item =>
        body clean module fuel item.1.1 item.1.2 item.2 := by
  rw [body, bodyItem]
  simp only
  split_ifs
  · rfl
  · rfl
  · simp only [bind_assoc]
    rfl
  · cases direction? t.text with
    | none => rfl
    | some d =>
      simp only [bind_assoc]
      rfl

theorem expect_lt {want : String} {ts rest : List Token} (h : expect want ts = .ok ((), rest)) :
    rest.length < ts.length := by
  cases ts with
  | nil => cases h
  | cons t ts =>
    rw [expect] at h
    split at h
    · cases h
      exact Nat.lt_succ_self _
    · cases h

/-- What an item of a body is, and what is known and left behind it. -/
inductive BodyStep (clean : List UInt8) (module : String) (ports : List PortDecl)
    (params : List Param) : List Token → List PortDecl → List Param → List Token → Prop
  | subroutine {t : Token} {ts : List Token}
      (ht : (t.text == "function" || t.text == "task") = true) :
    BodyStep clean module ports params (t :: ts) ports params
      ((ts.dropWhile (·.text != "end" ++ t.text)).drop 1)
  | parameter {t : Token} {ts us rest : List Token} {ps : List Param}
      (ht : (t.text == "parameter" || t.text == "localparam") = true)
      (hgroup : paramGroup clean false (t :: ts) = .ok (ps, us))
      (hend : expect ";" us = .ok ((), rest)) :
    BodyStep clean module ports params (t :: ts) ports (params ++ ps) rest
  | port {t : Token} {ts us vs rest : List Token} {d : Direction} {r : Option BitRange}
      {ports' : List PortDecl} (hd : direction? t.text = some d)
      (hrange : typeAndRange clean ts = .ok (r, us))
      (hnames : declaredNames module (d, r) (us.length + 1) ports us = .ok (ports', vs))
      (hend : expect ";" vs = .ok ((), rest)) :
    BodyStep clean module ports params (t :: ts) ports' params rest
  | other {t : Token} {ts : List Token}
      (hsub : (t.text == "function" || t.text == "task") = false)
      (hparam : (t.text == "parameter" || t.text == "localparam") = false)
      (hd : direction? t.text = none) : BodyStep clean module ports params (t :: ts) ports params ts

/-- The words that begin the other items are no directions. -/
theorem direction?_ne {word : String} {d : Direction} (h : direction? word = some d) :
    (word == "function" || word == "task") = false ∧
      (word == "parameter" || word == "localparam") = false := by
  have hwords : ∀ w ∈ ["function", "task", "parameter", "localparam"], direction? w = none := by
    decide
  have hne (w : String) (hw : w ∈ ["function", "task", "parameter", "localparam"]) :
      (word == w) = false := by
    refine beq_eq_false_iff_ne.2 fun he => ?_
    rw [he, hwords w hw] at h
    cases h
  simp [hne]

theorem bodyItem_ok {ts rest : List Token} {ports' : List PortDecl} {params' : List Param} :
    bodyItem clean module ports params ts = .ok ((ports', params'), rest) ↔
      BodyStep clean module ports params ts ports' params' rest := by
  constructor
  · intro h
    cases ts with
    | nil => cases h
    | cons t ts =>
      rw [bodyItem] at h
      simp only at h
      split_ifs at h with hsub hparam
      · cases h
        exact .subroutine hsub
      · obtain ⟨⟨ps, us⟩, hgroup, h⟩ := bind_ok.1 h
        obtain ⟨⟨⟨⟩, vs⟩, hexpect, h⟩ := bind_ok.1 h
        cases h
        exact .parameter hparam hgroup hexpect
      · split at h
        · rename_i d hd
          obtain ⟨⟨r, us⟩, hrange, h⟩ := bind_ok.1 h
          obtain ⟨⟨ds, vs⟩, hnames, h⟩ := bind_ok.1 h
          obtain ⟨⟨⟨⟩, ws⟩, hexpect, h⟩ := bind_ok.1 h
          cases h
          exact .port hd hrange hnames hexpect
        · rename_i hd
          cases h
          exact .other (by simpa using hsub) (by simpa using hparam) hd
  · intro h
    cases h with
    | subroutine ht => simp only [bodyItem, ht, if_true]
    | @parameter t ts us rest ps ht hgroup hend =>
      have hsub : (t.text == "function" || t.text == "task") = false := by
        simp only [Bool.or_eq_true, beq_iff_eq] at ht
        rcases ht with ht | ht <;> rw [ht] <;> decide
      simp only [bodyItem, hsub, ht, if_true, Bool.false_eq_true, if_false]
      exact bind_ok.2 ⟨(ps, us), hgroup, bind_ok.2 ⟨((), rest), hend, rfl⟩⟩
    | @port t ts us vs rest d r ports' hd hrange hnames hend =>
      obtain ⟨hsub, hparam⟩ := direction?_ne hd
      simp only [bodyItem, hsub, hparam, Bool.false_eq_true, if_false, hd]
      exact bind_ok.2 ⟨(r, us), hrange, bind_ok.2 ⟨(ports', vs), hnames,
        bind_ok.2 ⟨((), rest), hend, rfl⟩⟩⟩
    | other hsub hparam hd => simp only [bodyItem, hsub, hparam, hd, Bool.false_eq_true, if_false]

theorem bodyItem_consumes {ts rest : List Token} {a : List PortDecl × List Param}
    (h : bodyItem clean module ports params ts = .ok (a, rest)) :
    rest <:+ ts ∧ rest.length < ts.length := by
  have htail {t : Token} {ts : List Token} (hr : rest <:+ ts) :
      rest <:+ t :: ts ∧ rest.length < (t :: ts).length :=
    ⟨hr.trans (List.suffix_cons t ts), Nat.lt_succ_of_le hr.length_le⟩
  obtain ⟨ports', params'⟩ := a
  cases bodyItem_ok.1 h with
  | subroutine ht => exact htail ((List.drop_suffix 1 _).trans (List.dropWhile_suffix _))
  | parameter ht hgroup hend =>
    have hus := paramGroup_consumes clean false hgroup
    exact ⟨(expect_consumes _ hend).trans hus, (expect_lt hend).trans_le hus.length_le⟩
  | port hd hrange hnames hend =>
    exact htail ((expect_consumes _ hend).trans ((declaredNames_consumes _ _ _ _ hnames).trans
      (typeAndRange_consumes clean hrange)))
  | other hsub hparam hd => exact htail (List.suffix_refl _)

/-- A body ends at the word for its end, and is left behind it. -/
theorem body_ends {fuel : Nat} {ts rest : List Token} {b : Body}
    (h : body clean module fuel ports params ts = .ok (b, rest)) (hfuel : ts.length < fuel) :
    ∃ us t, ts = us ++ t :: rest ∧ t.text = "endmodule" ∧ b.stop = t.offset + t.bytes.length := by
  induction fuel generalizing ts ports params with
  | zero => omega
  | succ fuel ih =>
    cases ts with
    | nil => cases h
    | cons t ts =>
      rw [body_cons] at h
      split at h
      · rename_i hend
        cases h
        exact ⟨[], t, rfl, eq_of_beq hend, rfl⟩
      · obtain ⟨⟨a, us⟩, hitem, h⟩ := bind_ok.1 h
        obtain ⟨hsuffix, hlt⟩ := bodyItem_consumes hitem
        obtain ⟨vs, u, rfl, hu⟩ := ih h (show us.length < fuel by omega)
        obtain ⟨p, hp⟩ := hsuffix
        exact ⟨p ++ vs, u, by rw [List.append_assoc, hp], hu⟩

/-- The ports of a header, and the body behind them. -/
def portsAndBody (clean : List UInt8) (module : String) (params : List Param) : Reader Body :=
  fun ts => do
    let (ports, ts) ← portList clean ts
    let ((), ts) ← expect ";" ts
    body clean module (ts.length + 1) ports params ts

theorem portsAndBody_ok {ts rest : List Token} {b : Body} :
    portsAndBody clean module params ts = .ok (b, rest) ↔
      ∃ ports us vs, portList clean ts = .ok (ports, us) ∧ expect ";" us = .ok ((), vs) ∧
        body clean module (vs.length + 1) ports params vs = .ok (b, rest) := by
  constructor
  · intro h
    obtain ⟨⟨ports, us⟩, hports, h⟩ := bind_ok.1 h
    obtain ⟨⟨⟨⟩, vs⟩, hexpect, h⟩ := bind_ok.1 h
    exact ⟨ports, us, vs, hports, hexpect, h⟩
  · rintro ⟨ports, us, vs, hports, hexpect, h⟩
    exact bind_ok.2 ⟨(ports, us), hports, bind_ok.2 ⟨((), vs), hexpect, h⟩⟩

theorem portsAndBody_ends {ts rest : List Token} {b : Body}
    (h : portsAndBody clean module params ts = .ok (b, rest)) :
    ∃ us t, ts = us ++ t :: rest ∧ t.text = "endmodule" ∧ b.stop = t.offset + t.bytes.length := by
  obtain ⟨ports, us, vs, hports, hexpect, h⟩ := portsAndBody_ok.1 h
  obtain ⟨ws, t, rfl, ht⟩ := body_ends h (Nat.lt_succ_self _)
  obtain ⟨p, rfl⟩ := (expect_consumes _ hexpect).trans (portList_consumes _ hports)
  exact ⟨p ++ ws, t, by rw [List.append_assoc], ht⟩

/-- A module is its name, the parameters of its header, and the rest. -/
theorem moduleParts_ok {t : Token} {ts rest : List Token} {name : String} {b : Body} :
    moduleParts clean (t :: ts) = .ok ((name, b), rest) ↔ t.isName = true ∧ t.text = name ∧
      ∃ params us, paramList clean ts = .ok (params, us) ∧
        portsAndBody clean name params us = .ok (b, rest) := by
  rw [moduleParts]
  cases t.isName with
  | false => simp
  | true =>
    simp only [Bool.not_true, Bool.false_eq_true, if_false, true_and]
    constructor
    · intro h
      obtain ⟨⟨params, us⟩, hparams, h⟩ := bind_ok.1 h
      obtain ⟨⟨ports, vs⟩, hports, h⟩ := bind_ok.1 h
      obtain ⟨⟨⟨⟩, ws⟩, hexpect, h⟩ := bind_ok.1 h
      obtain ⟨⟨b', rest'⟩, hbody, h⟩ := bind_ok.1 h
      cases h
      exact ⟨rfl, params, us, hparams, portsAndBody_ok.2 ⟨ports, vs, ws, hports, hexpect, hbody⟩⟩
    · rintro ⟨rfl, params, us, hparams, h⟩
      obtain ⟨ports, vs, ws, hports, hexpect, hbody⟩ := portsAndBody_ok.1 h
      exact bind_ok.2 ⟨(params, us), hparams, bind_ok.2 ⟨(ports, vs), hports,
        bind_ok.2 ⟨((), ws), hexpect, bind_ok.2 ⟨(b, rest), hbody, rfl⟩⟩⟩⟩

/-- A module ends at the word for its end. -/
theorem moduleParts_ends {ts rest : List Token} {name : String} {b : Body}
    (h : moduleParts clean ts = .ok ((name, b), rest)) :
    ∃ us t, ts = us ++ t :: rest ∧ t.text = "endmodule" ∧ b.stop = t.offset + t.bytes.length := by
  cases ts with
  | nil => cases h
  | cons u ts =>
    obtain ⟨-, -, params, vs, hparams, h⟩ := moduleParts_ok.1 h
    obtain ⟨us, t, rfl, ht⟩ := portsAndBody_ends h
    obtain ⟨p, rfl⟩ := paramList_consumes _ hparams
    exact ⟨u :: (p ++ us), t, by simp, ht⟩

end

/-! ### The same tokens in another source -/

/-- Tokens of one source that stand in another one as well, up to a word that ends a module.  The
places of the tokens may be others, but the text between any two of them is the same. -/
structure Window where
  clean : List UInt8
  clean' : List UInt8
  move : Token → Token
  tokens : List Token
  stop : List Token
  stop' : List Token
  bytes_move : ∀ t, (move t).bytes = t.bytes
  span_move : ∀ ts, ts ⊆ tokens → spanText clean' (ts.map move) = spanText clean ts
  head_stop : headText stop = "endmodule"
  head_stop' : headText stop' = "endmodule"

namespace Window

/-- The tokens that are left in the two sources agree up to the end of the module. -/
def Moved (w : Window) (ts ts' : List Token) : Prop :=
  ∃ us, us ⊆ w.tokens ∧ ts = us ++ w.stop ∧ ts' = us.map w.move ++ w.stop'

variable {w : Window} {ts ts' rest : List Token}

@[simp] theorem text_move (w : Window) (t : Token) : (w.move t).text = t.text := by
  rw [Token.text, w.bytes_move, Token.text]

@[simp] theorem isName_move (w : Window) (t : Token) : (w.move t).isName = t.isName := by
  rw [Token.isName, Token.isName, w.text_move, w.bytes_move]

theorem exists_stop (w : Window) : ∃ t ts, w.stop = t :: ts ∧ t.text = "endmodule" := by
  have h := w.head_stop
  cases hs : w.stop with
  | nil =>
    rw [hs] at h
    exact absurd h (by decide)
  | cons t ts =>
    rw [hs] at h
    exact ⟨t, ts, rfl, h⟩

/-- A reader that stands before the end of the module cannot have taken that end. -/
theorem not_suffix_tail {t : Token} {ts : List Token} (h : w.stop = t :: ts) :
    ¬ w.stop <:+ ts := by
  intro hs
  have hle := hs.length_le
  rw [h, List.length_cons] at hle
  omega

theorem Moved.cases (h : w.Moved ts ts') : (ts = w.stop ∧ ts' = w.stop') ∨
    ∃ t us us', t ∈ w.tokens ∧ ts = t :: us ∧ ts' = w.move t :: us' ∧ w.Moved us us' := by
  obtain ⟨us, hmem, rfl, rfl⟩ := h
  cases us with
  | nil => exact .inl ⟨rfl, rfl⟩
  | cons t us =>
    rw [List.cons_subset] at hmem
    exact .inr ⟨t, _, _, hmem.1, rfl, rfl, us, hmem.2, rfl, rfl⟩

theorem Moved.headText (h : w.Moved ts ts') : headText ts' = headText ts := by
  rcases h.cases with ⟨rfl, rfl⟩ | ⟨t, us, us', -, rfl, rfl, -⟩
  · rw [w.head_stop, w.head_stop']
  · exact w.text_move t

theorem Moved.isEmpty (h : w.Moved ts ts') : ts.isEmpty = false ∧ ts'.isEmpty = false := by
  have hstop {vs : List Token} (hv : Source.headText vs = "endmodule") : vs.isEmpty = false := by
    cases vs with
    | nil => exact absurd hv (by decide)
    | cons v vs => rfl
  rcases h.cases with ⟨rfl, rfl⟩ | ⟨t, us, us', -, rfl, rfl, -⟩
  · exact ⟨hstop w.head_stop, hstop w.head_stop'⟩
  · exact ⟨rfl, rfl⟩

theorem Moved.drop (h : w.Moved ts ts') (hne : Source.headText ts ≠ "endmodule") :
    w.Moved (ts.drop 1) (ts'.drop 1) := by
  rcases h.cases with ⟨rfl, rfl⟩ | ⟨t, us, us', -, rfl, rfl, hus⟩
  · exact absurd w.head_stop hne
  · exact hus

theorem Moved.dropWhile {p : String → Bool} (h : w.Moved ts ts') (hp : p "endmodule" = false) :
    w.Moved (ts.dropWhile (p ·.text)) (ts'.dropWhile (p ·.text)) := by
  obtain ⟨us, hmem, rfl, rfl⟩ := h
  induction us with
  | nil =>
    have hkeep {vs : List Token} (hv : Source.headText vs = "endmodule") :
        vs.dropWhile (p ·.text) = vs := by
      cases vs with
      | nil => rfl
      | cons v vs => exact List.dropWhile_cons_of_neg (by rw [show v.text = _ from hv, hp]; simp)
    refine ⟨[], List.nil_subset _, ?_, ?_⟩
    · exact hkeep w.head_stop
    · exact hkeep w.head_stop'
  | cons u us ih =>
    have hsub := (List.cons_subset.1 hmem).2
    cases hu : p u.text with
    | true => simpa [hu] using ih hsub
    | false => exact ⟨u :: us, hmem, by simp [hu], by simp [hu]⟩

/-- The reader does the same in the other source, as long as it leaves the end of the module. -/
def Local (w : Window) {α : Type} (read read' : Reader α) : Prop :=
  ∀ {ts ts' rest : List Token} {a : α}, w.Moved ts ts' → read ts = .ok (a, rest) →
    w.stop <:+ rest → ∃ rest', read' ts' = .ok (a, rest') ∧ w.Moved rest rest'

theorem expect_local (w : Window) {want : String} (hwant : want ≠ "endmodule") :
    w.Local (expect want) (expect want) := by
  intro ts ts' rest a hm h _
  rcases hm.cases with ⟨rfl, rfl⟩ | ⟨t, us, us', -, rfl, rfl, hus⟩
  · obtain ⟨t, us, hstop, ht⟩ := w.exists_stop
    rw [hstop, expect, ht, if_neg (by simpa using hwant.symm)] at h
    cases h
  · rw [expect] at h ⊢
    rw [w.text_move]
    split at h
    · rename_i ht
      cases h
      exact ⟨us', by rw [if_pos ht], hus⟩
    · cases h

theorem takeValue_local {depth : Nat} (hm : w.Moved ts ts')
    (hrest : w.stop <:+ (takeValue depth ts).2) :
    (takeValue depth ts).1 ⊆ w.tokens ∧
      (takeValue depth ts').1 = (takeValue depth ts).1.map w.move ∧
      w.Moved (takeValue depth ts).2 (takeValue depth ts').2 := by
  obtain ⟨us, hmem, rfl, rfl⟩ := hm
  induction us generalizing depth with
  | nil =>
    obtain ⟨t, us, hstop, ht⟩ := w.exists_stop
    have hvalue : (takeValue depth w.stop).2 = (takeValue depth us).2 := by
      have hopens : opens "endmodule" = false := by decide
      have hcloses : closes "endmodule" = false := by decide
      rw [hstop, takeValue]
      simp [ht, hopens, hcloses]
    rw [List.nil_append, hvalue] at hrest
    exact absurd (hrest.trans (takeValue_suffix depth us)) (not_suffix_tail hstop)
  | cons t us ih =>
    obtain ⟨ht, hus⟩ := List.cons_subset.1 hmem
    have hgo {d : Nat} (hd : w.stop <:+ (takeValue d (us ++ w.stop)).2) :=
      ih hus hd
    have hstay : w.Moved (t :: us ++ w.stop) ((t :: us).map w.move ++ w.stop') :=
      ⟨t :: us, hmem, rfl, rfl⟩
    rw [List.cons_append, takeValue] at hrest ⊢
    rw [List.map_cons, List.cons_append, takeValue, w.text_move]
    simp only at hrest ⊢
    split_ifs at hrest ⊢
    · obtain ⟨hsub, heq, hmoved⟩ := hgo hrest
      exact ⟨List.cons_subset.2 ⟨ht, hsub⟩, by rw [heq, List.map_cons], hmoved⟩
    · exact ⟨List.nil_subset _, rfl, hstay⟩
    · obtain ⟨hsub, heq, hmoved⟩ := hgo hrest
      exact ⟨List.cons_subset.2 ⟨ht, hsub⟩, by rw [heq, List.map_cons], hmoved⟩
    · exact ⟨List.nil_subset _, rfl, hstay⟩
    · obtain ⟨hsub, heq, hmoved⟩ := hgo hrest
      exact ⟨List.cons_subset.2 ⟨ht, hsub⟩, by rw [heq, List.map_cons], hmoved⟩

theorem rangeBounds_local {depth : Int} {msb : List Token} {lsb : Option (List Token)}
    (hmsb : msb ⊆ w.tokens) (hlsb : ∀ l ∈ lsb, l ⊆ w.tokens) :
    w.Local (rangeBounds w.clean depth msb lsb)
      (rangeBounds w.clean' depth (msb.map w.move) (lsb.map (List.map w.move))) := by
  intro ts ts' rest r hm h hrest
  obtain ⟨us, hmem, rfl, rfl⟩ := hm
  induction us generalizing depth msb lsb with
  | nil =>
    obtain ⟨t, us, hstop, ht⟩ := w.exists_stop
    refine absurd (hrest.trans ?_) (not_suffix_tail hstop)
    have hend : ("endmodule" == "]") = false := by decide
    have hcolon : ("endmodule" == ":") = false := by decide
    rw [List.nil_append, hstop] at h
    unfold rangeBounds at h
    simp only [ht, hend, hcolon, Bool.false_and, Bool.false_eq_true, if_false] at h
    cases lsb with
    | none => exact rangeBounds_consumes _ _ _ _ h
    | some l => exact rangeBounds_consumes _ _ _ _ h
  | cons t us ih =>
    obtain ⟨ht, hus⟩ := List.cons_subset.1 hmem
    rw [List.cons_append] at h
    rw [List.map_cons, List.cons_append]
    unfold rangeBounds at h ⊢
    simp only [w.text_move, Option.isNone_map] at h ⊢
    split at h
    · rename_i hend
      rw [if_pos hend]
      cases lsb with
      | none => cases h
      | some l =>
        cases h
        have hspan (l : List Token) (hl : l ⊆ w.tokens) :
            spanText w.clean' (l.map w.move).reverse = spanText w.clean l.reverse := by
          rw [← List.map_reverse]
          exact w.span_move _ fun x hx => hl (List.mem_reverse.1 hx)
        refine ⟨us.map w.move ++ w.stop', ?_, us, hus, rfl, rfl⟩
        simp only [Option.map_some]
        rw [hspan msb hmsb, hspan l (hlsb l rfl)]
    · rename_i hend
      rw [if_neg hend]
      split at h
      · rename_i hcolon
        rw [if_pos hcolon]
        exact ih hmsb (fun l hl => by cases hl; exact List.nil_subset _) hus h
      · rename_i hcolon
        rw [if_neg hcolon]
        cases lsb with
        | none => exact ih (List.cons_subset.2 ⟨ht, hmsb⟩) (fun l hl => by cases hl) hus h
        | some l =>
          refine ih hmsb (fun l' hl' => ?_) hus h
          cases hl'
          exact List.cons_subset.2 ⟨ht, hlsb l rfl⟩

theorem range_local (w : Window) : w.Local (range w.clean) (range w.clean') := by
  intro ts ts' rest r hm h hrest
  rcases hm.cases with ⟨rfl, rfl⟩ | ⟨t, us, us', -, rfl, rfl, hus⟩
  · have hkeep (clean : List UInt8) {vs : List Token} (hv : Source.headText vs = "endmodule") :
        range clean vs = .ok (none, vs) := by
      cases vs with
      | nil => rfl
      | cons v vs =>
        rw [range, show v.text = _ from hv]
        rfl
    rw [hkeep _ w.head_stop] at h
    cases h
    exact ⟨w.stop', hkeep _ w.head_stop', hm⟩
  · rw [range] at h ⊢
    rw [w.text_move]
    split at h
    · rename_i hopen
      obtain ⟨⟨b, vs⟩, hb, hr⟩ := bind_ok.1 h
      cases hr
      obtain ⟨vs', hb', hvs⟩ := rangeBounds_local (List.nil_subset _) (by simp) hus hb hrest
      rw [if_pos hopen]
      exact ⟨vs', bind_ok.2 ⟨(b, vs'), hb', rfl⟩, hvs⟩
    · rename_i hopen
      cases h
      exact ⟨_, by rw [if_neg hopen], hm⟩

theorem typeAndRange_local (w : Window) : w.Local (typeAndRange w.clean) (typeAndRange w.clean') :=
  fun hm h hrest => w.range_local (hm.dropWhile (p := typeWords.contains) (by decide)) h hrest

theorem isName_of_reserved {t : Token} (h : t.text ∈ reservedWords) : t.isName = false := by
  unfold Token.isName
  split
  · rfl
  · simp [h]

/-- Whether a list of assignments ends looks the same in both sources. -/
theorem Moved.ends_iff (hm : w.Moved ts ts') (header : Bool) :
    (Source.headText ts' != "," || (header && Source.headText (ts'.drop 1) == "parameter")) =
      (Source.headText ts != "," || (header && Source.headText (ts.drop 1) == "parameter")) := by
  rw [hm.headText]
  by_cases hcomma : Source.headText ts = ","
  · rw [(hm.drop (by rw [hcomma]; decide)).headText]
  · have hends : (Source.headText ts != ",") = true := by simpa using hcomma
    rw [hends, Bool.true_or, Bool.true_or]

theorem assignments_local {header isLocal : Bool} {r : Option BitRange} {fuel fuel' : Nat}
    {ps : List Param} (hm : w.Moved ts ts') (hfuel : ts.length < fuel) (hfuel' : ts'.length < fuel')
    (h : assignments w.clean header isLocal r fuel ts = .ok (ps, rest)) (hrest : w.stop <:+ rest) :
    ∃ rest', assignments w.clean' header isLocal r fuel' ts' = .ok (ps, rest') ∧
      w.Moved rest rest' := by
  induction fuel generalizing fuel' ts ts' ps with
  | zero => omega
  | succ fuel ih =>
    obtain ⟨fuel', rfl⟩ : ∃ k, fuel' = k + 1 := ⟨fuel' - 1, by omega⟩
    rcases hm.cases with ⟨rfl, rfl⟩ | ⟨t, us, us', -, rfl, rfl, hus⟩
    · obtain ⟨t, us, hstop, ht⟩ := w.exists_stop
      have hname : t.isName = false := isName_of_reserved (by rw [ht]; decide)
      rw [hstop, assignments, hname] at h
      cases h
    · rw [assignments] at h ⊢
      rw [w.isName_move, w.text_move]
      split at h
      · cases h
      · rename_i hname
        rw [if_neg hname]
        obtain ⟨⟨⟨⟩, vs⟩, hexpect, h⟩ := bind_ok.1 h
        simp only at h
        -- whatever is left behind the value holds the end of the module
        have hvalue : w.stop <:+ (takeValue 0 vs).2 := by
          split at h
          · cases h
            exact hrest
          · obtain ⟨⟨qs, ws⟩, hnext, h⟩ := bind_ok.1 h
            cases h
            exact hrest.trans ((assignments_consumes _ _ _ _ _ hnext).trans (List.drop_suffix 1 _))
        obtain ⟨vs', hexpect', hvs⟩ := w.expect_local (by decide) hus hexpect
          (hvalue.trans (takeValue_suffix 0 vs))
        obtain ⟨hsub, heq, hleft⟩ := takeValue_local hvs hvalue
        rw [hexpect']
        simp only [bind, Except.bind]
        rw [heq, w.span_move _ hsub, hleft.ends_iff header]
        split at h
        · rename_i hends
          cases h
          rw [if_pos hends]
          exact ⟨_, rfl, hleft⟩
        · rename_i hends
          rw [if_neg hends]
          have hcomma : Source.headText (takeValue 0 vs).2 = "," := by
            by_contra hne
            exact hends (by simp [hne])
          obtain ⟨⟨qs, ws⟩, hnext, h⟩ := bind_ok.1 h
          obtain ⟨rfl, rfl⟩ := Prod.mk.inj (Except.ok.inj h)
          have hlt := (expect_consumes _ hexpect).length_le
          have hlt' := (expect_consumes _ hexpect').length_le
          have hle := ((List.drop_suffix 1 _).trans (takeValue_suffix 0 vs)).length_le
          have hle' := ((List.drop_suffix 1 _).trans (takeValue_suffix 0 vs')).length_le
          rw [List.length_cons] at hfuel hfuel'
          have hfuels : ((takeValue 0 vs).2.drop 1).length < fuel ∧
              ((takeValue 0 vs').2.drop 1).length < fuel' := by omega
          obtain ⟨ws', hnext', hws⟩ :=
            ih (hleft.drop (by rw [hcomma]; decide)) hfuels.1 hfuels.2 hnext
          exact ⟨ws', bind_ok.2 ⟨(qs, ws'), hnext', rfl⟩, hws⟩

theorem paramGroup_local (w : Window) (header : Bool) :
    w.Local (paramGroup w.clean header) (paramGroup w.clean' header) := by
  intro ts ts' rest ps hm h hrest
  unfold paramGroup at h ⊢
  simp only at h ⊢
  rw [hm.headText]
  have hkeyword : w.Moved
      (if Source.headText ts == "parameter" || Source.headText ts == "localparam" then ts.drop 1
        else ts)
      (if Source.headText ts == "parameter" || Source.headText ts == "localparam" then ts'.drop 1
        else ts') := by
    split
    · rename_i hword
      refine hm.drop fun hend => ?_
      rw [hend] at hword
      exact absurd hword (by decide)
    · exact hm
  obtain ⟨⟨r, us⟩, hrange, h⟩ := bind_ok.1 h
  obtain ⟨us', hrange', hus⟩ := w.typeAndRange_local hkeyword hrange
    (hrest.trans (assignments_consumes _ _ _ _ _ h))
  rw [hrange']
  exact assignments_local hus (Nat.lt_succ_self _) (Nat.lt_succ_self _) h hrest

theorem headerParams_local {fuel fuel' : Nat} {ps : List Param} (hm : w.Moved ts ts')
    (hfuel : ts.length < fuel) (hfuel' : ts'.length < fuel')
    (h : headerParams w.clean fuel ts = .ok (ps, rest)) (hrest : w.stop <:+ rest) :
    ∃ rest', headerParams w.clean' fuel' ts' = .ok (ps, rest') ∧ w.Moved rest rest' := by
  induction fuel generalizing fuel' ts ts' ps with
  | zero => omega
  | succ fuel ih =>
    obtain ⟨fuel', rfl⟩ : ∃ k, fuel' = k + 1 := ⟨fuel' - 1, by omega⟩
    obtain ⟨hne, hne'⟩ := hm.isEmpty
    rw [headerParams] at h ⊢
    simp only [hne, hne', Bool.or_false] at h ⊢
    rw [hm.headText]
    split at h
    · rename_i hclose
      cases h
      rw [if_pos hclose]
      exact ⟨ts', rfl, hm⟩
    · rename_i hclose
      rw [if_neg hclose]
      split at h
      · rename_i hcomma
        have hdrop := hm.drop fun hend => by
          rw [hend] at hcomma
          exact absurd hcomma (by decide)
        have hlt : (ts.drop 1).length < ts.length := by
          rw [List.length_drop]
          have hpos := List.length_pos_of_ne_nil (List.isEmpty_eq_false_iff.1 hne)
          omega
        have hlt' : (ts'.drop 1).length < ts'.length := by
          rw [List.length_drop]
          have hpos := List.length_pos_of_ne_nil (List.isEmpty_eq_false_iff.1 hne')
          omega
        rw [if_pos hcomma]
        exact ih hdrop (by omega) (by omega) h
      · rename_i hcomma
        rw [if_neg hcomma]
        obtain ⟨⟨qs, us⟩, hgroup, h⟩ := bind_ok.1 h
        obtain ⟨⟨qs', vs⟩, hnext, h⟩ := bind_ok.1 h
        obtain ⟨rfl, rfl⟩ := Prod.mk.inj (Except.ok.inj h)
        obtain ⟨us', hgroup', hus⟩ := w.paramGroup_local true hm hgroup
          (hrest.trans (headerParams_consumes _ _ hnext))
        have hlt := paramGroup_lt _ hgroup
        have hlt' := paramGroup_lt _ hgroup'
        have hfuels : us.length < fuel ∧ us'.length < fuel' := by omega
        obtain ⟨vs', hnext', hvs⟩ := ih hus hfuels.1 hfuels.2 hnext
        exact ⟨vs', bind_ok.2 ⟨(qs, us'), hgroup', bind_ok.2 ⟨(qs', vs'), hnext', rfl⟩⟩, hvs⟩

theorem paramList_local (w : Window) : w.Local (paramList w.clean) (paramList w.clean') := by
  intro ts ts' rest ps hm h hrest
  unfold paramList at h ⊢
  rw [hm.headText]
  split at h
  · rename_i hhash
    cases h
    rw [if_pos hhash]
    exact ⟨ts', rfl, hm⟩
  · rename_i hhash
    have hdrop := hm.drop fun hend => hhash (by rw [hend]; decide)
    obtain ⟨⟨⟨⟩, us⟩, hopen, h⟩ := bind_ok.1 h
    obtain ⟨⟨qs, vs⟩, hparams, h⟩ := bind_ok.1 h
    obtain ⟨⟨⟨⟩, ws⟩, hclose, h⟩ := bind_ok.1 h
    cases h
    have hvs := hrest.trans (expect_consumes _ hclose)
    obtain ⟨us', hopen', hus⟩ := w.expect_local (by decide) hdrop hopen
      (hvs.trans (headerParams_consumes _ _ hparams))
    obtain ⟨vs', hparams', hvs'⟩ :=
      headerParams_local hus (Nat.lt_succ_self _) (Nat.lt_succ_self _) hparams hvs
    obtain ⟨ws', hclose', hws⟩ := w.expect_local (by decide) hvs' hclose hrest
    rw [if_neg hhash]
    exact ⟨ws', bind_ok.2 ⟨((), us'), hopen', bind_ok.2 ⟨(ps, vs'), hparams',
      bind_ok.2 ⟨((), ws'), hclose', rfl⟩⟩⟩, hws⟩

theorem portNames_local {fuel fuel' : Nat} {current : Option (Direction × Option BitRange)}
    {ds : List PortDecl} (hm : w.Moved ts ts') (hfuel : ts.length < fuel)
    (hfuel' : ts'.length < fuel') (h : portNames w.clean fuel current ts = .ok (ds, rest))
    (hrest : w.stop <:+ rest) :
    ∃ rest', portNames w.clean' fuel' current ts' = .ok (ds, rest') ∧ w.Moved rest rest' := by
  induction fuel generalizing fuel' ts ts' current ds with
  | zero => omega
  | succ fuel ih =>
    obtain ⟨fuel', rfl⟩ : ∃ k, fuel' = k + 1 := ⟨fuel' - 1, by omega⟩
    rcases hm.cases with ⟨rfl, rfl⟩ | ⟨t, us, us', -, rfl, rfl, hus⟩
    · obtain ⟨t, us, hstop, ht⟩ := w.exists_stop
      have hname : t.isName = false := isName_of_reserved (by rw [ht]; decide)
      have hwords : ("endmodule" == ")") = false ∧ ("endmodule" == ",") = false ∧
          direction? "endmodule" = none := by decide
      rw [hstop, portNames] at h
      simp only [ht, hwords, hname] at h
      cases h
    · rw [List.length_cons] at hfuel hfuel'
      rw [portNames] at h ⊢
      simp only [w.text_move, w.isName_move] at h ⊢
      split at h
      · rename_i hclose
        cases h
        exact ⟨us', by rw [if_pos hclose], hus⟩
      · rename_i hclose
        rw [if_neg hclose]
        split at h
        · rename_i hcomma
          rw [if_pos hcomma]
          exact ih hus (by omega) (by omega) h
        · rename_i hcomma
          rw [if_neg hcomma]
          cases hdir : direction? t.text with
          | some d =>
            simp only [hdir] at h ⊢
            obtain ⟨⟨r, vs⟩, hrange, h⟩ := bind_ok.1 h
            obtain ⟨vs', hrange', hvs⟩ := w.typeAndRange_local hus hrange
              (hrest.trans (portNames_consumes _ _ _ h))
            have hle := (typeAndRange_consumes _ hrange).length_le
            have hle' := (typeAndRange_consumes _ hrange').length_le
            have hfuels : vs.length < fuel ∧ vs'.length < fuel' := by omega
            obtain ⟨ws', hnext', hws⟩ := ih hvs hfuels.1 hfuels.2 h
            exact ⟨ws', bind_ok.2 ⟨(r, vs'), hrange', hnext'⟩, hws⟩
          | none =>
            simp only [hdir] at h ⊢
            split at h
            · rename_i hname
              rw [if_pos hname]
              obtain ⟨⟨ds', vs⟩, hnext, h⟩ := bind_ok.1 h
              obtain ⟨rfl, rfl⟩ := Prod.mk.inj (Except.ok.inj h)
              have hfuels : us.length < fuel ∧ us'.length < fuel' := by omega
              obtain ⟨vs', hnext', hvs⟩ := ih hus hfuels.1 hfuels.2 hnext
              exact ⟨vs', bind_ok.2 ⟨(ds', vs'), hnext', rfl⟩, hvs⟩
            · cases h

theorem portList_local (w : Window) : w.Local (portList w.clean) (portList w.clean') := by
  intro ts ts' rest ds hm h hrest
  unfold portList at h ⊢
  rw [hm.headText]
  split at h
  · rename_i hopen
    have hdrop := hm.drop fun hend => by
      rw [hend] at hopen
      exact absurd hopen (by decide)
    rw [if_pos hopen]
    exact portNames_local hdrop (Nat.lt_succ_of_le (List.drop_suffix 1 ts).length_le)
      (Nat.lt_succ_of_le (List.drop_suffix 1 ts').length_le) h hrest
  · rename_i hopen
    cases h
    rw [if_neg hopen]
    exact ⟨ts', rfl, hm⟩

theorem declaredNames_local {module : String} {type : Direction × Option BitRange}
    {fuel fuel' : Nat} {ds ds' : List PortDecl} (hm : w.Moved ts ts') (hfuel : ts.length < fuel)
    (hfuel' : ts'.length < fuel') (h : declaredNames module type fuel ds ts = .ok (ds', rest))
    (hrest : w.stop <:+ rest) :
    ∃ rest', declaredNames module type fuel' ds ts' = .ok (ds', rest') ∧ w.Moved rest rest' := by
  induction fuel generalizing fuel' ts ts' ds with
  | zero => omega
  | succ fuel ih =>
    obtain ⟨fuel', rfl⟩ : ∃ k, fuel' = k + 1 := ⟨fuel' - 1, by omega⟩
    rcases hm.cases with ⟨rfl, rfl⟩ | ⟨t, us, us', -, rfl, rfl, hus⟩
    · obtain ⟨t, us, hstop, ht⟩ := w.exists_stop
      -- the reader goes past the end of the module
      refine absurd (hrest.trans ?_) (not_suffix_tail hstop)
      rw [hstop, declaredNames] at h
      split at h
      · cases h
      · split at h
        · exact (declaredNames_consumes _ _ _ _ h).trans (List.drop_suffix 1 us)
        · cases h
          exact List.suffix_refl _
    · rw [List.length_cons] at hfuel hfuel'
      rw [declaredNames] at h ⊢
      rw [w.text_move]
      cases hd : declare? t.text type ds with
      | none =>
        rw [hd] at h
        cases h
      | some ds₁ =>
        simp only [hd, hus.headText] at h ⊢
        split at h
        · rename_i hcomma
          have hdrop := hus.drop fun hend => by
            rw [hend] at hcomma
            exact absurd hcomma (by decide)
          have hle := (List.drop_suffix 1 us).length_le
          have hle' := (List.drop_suffix 1 us').length_le
          rw [if_pos hcomma]
          exact ih hdrop (by omega) (by omega) h
        · rename_i hcomma
          cases h
          exact ⟨us', by rw [if_neg hcomma], hus⟩

/-! ### Modules -/

/-- A subroutine that ends within the module. -/
theorem Moved.skip {word : String} (hm : w.Moved ts ts') (hword : word ≠ "endmodule")
    (hrest : w.stop <:+ (ts.dropWhile (·.text != word)).drop 1) :
    w.Moved ((ts.dropWhile (·.text != word)).drop 1) ((ts'.dropWhile (·.text != word)).drop 1) := by
  obtain ⟨us, hmem, rfl, rfl⟩ := hm
  have hmap : (us.map w.move).dropWhile (·.text != word) =
      (us.dropWhile (·.text != word)).map w.move := by
    rw [List.dropWhile_map]
    simp only [Function.comp_def, w.text_move]
  rw [List.dropWhile_append] at hrest ⊢
  rw [List.dropWhile_append, hmap]
  cases hus : us.dropWhile (·.text != word) with
  | nil =>
    obtain ⟨t, vs, hstop, ht⟩ := w.exists_stop
    have hgo : w.stop.dropWhile (·.text != word) = vs.dropWhile (·.text != word) := by
      rw [hstop, List.dropWhile_cons_of_pos]
      rw [ht, bne_iff_ne]
      exact hword.symm
    simp only [hus, List.isEmpty_nil, if_true, hgo] at hrest
    exact absurd (hrest.trans ((List.drop_suffix 1 _).trans (List.dropWhile_suffix _)))
      (not_suffix_tail hstop)
  | cons v vs =>
    refine ⟨vs, fun x hx => hmem ?_, by simp, by simp⟩
    exact (List.dropWhile_suffix (l := us) (·.text != word)).subset
      (by rw [hus]; exact List.mem_cons_of_mem v hx)

theorem bodyItem_local (w : Window) (module : String) (ports : List PortDecl)
    (params : List Param) : w.Local (bodyItem w.clean module ports params)
      (bodyItem w.clean' module ports params) := by
  intro ts ts' rest a hm h hrest
  rcases hm.cases with ⟨rfl, rfl⟩ | ⟨t, us, us', -, rfl, rfl, hus⟩
  · have hlt := (bodyItem_consumes h).2
    have hle := hrest.length_le
    omega
  · obtain ⟨ports', params'⟩ := a
    cases bodyItem_ok.1 h with
    | subroutine ht =>
      have hword : "end" ++ t.text ≠ "endmodule" := by
        simp only [Bool.or_eq_true, beq_iff_eq] at ht
        rcases ht with hword | hword <;> rw [hword] <;> decide
      have hstep : BodyStep w.clean' module ports params (w.move t :: us') ports params _ :=
        .subroutine (by rwa [w.text_move])
      rw [w.text_move] at hstep
      exact ⟨_, bodyItem_ok.2 hstep, hus.skip hword hrest⟩
    | parameter ht hgroup hend =>
      obtain ⟨vs', hgroup', hvs⟩ := w.paramGroup_local false hm hgroup
        (hrest.trans (expect_consumes _ hend))
      obtain ⟨ws', hend', hws⟩ := w.expect_local (by decide) hvs hend hrest
      exact ⟨ws', bodyItem_ok.2 (.parameter (by rwa [w.text_move]) hgroup' hend'), hws⟩
    | port hd hrange hnames hend =>
      have hws := hrest.trans (expect_consumes _ hend)
      obtain ⟨vs', hrange', hvs⟩ := w.typeAndRange_local hus hrange
        (hws.trans (declaredNames_consumes _ _ _ _ hnames))
      obtain ⟨ws', hnames', hws'⟩ :=
        declaredNames_local hvs (Nat.lt_succ_self _) (Nat.lt_succ_self _) hnames hws
      obtain ⟨xs', hend', hxs⟩ := w.expect_local (by decide) hws' hend hrest
      exact ⟨xs', bodyItem_ok.2 (.port (by rwa [w.text_move]) hrange' hnames' hend'), hxs⟩
    | other hsub hparam hd =>
      exact ⟨us', bodyItem_ok.2 (.other (by rwa [w.text_move]) (by rwa [w.text_move])
        (by rwa [w.text_move])), hus⟩

/-- Two ends of a list that are equally long are the same. -/
theorem stop_suffix {t u : Token} {us : List Token} (hstop : w.stop = t :: rest)
    (h : us ++ u :: rest <:+ ts) (hts : w.stop <:+ ts) : w.stop <:+ us ++ u :: rest := by
  refine List.suffix_of_suffix_length_le hts h ?_
  rw [hstop, List.length_append, List.length_cons, List.length_cons]
  omega

theorem Moved.stop_suffix (hm : w.Moved ts ts') : w.stop <:+ ts := by
  obtain ⟨us, -, rfl, -⟩ := hm
  exact List.suffix_append us w.stop

/-- A body is read in the other source, up to the end of the module there. -/
theorem body_local {module : String} {ports : List PortDecl} {params : List Param}
    {fuel fuel' : Nat} {b : Body} {t t' : Token} {us us' : List Token} (hm : w.Moved ts ts')
    (hstop : w.stop = t :: us) (hstop' : w.stop' = t' :: us') (hfuel : ts.length < fuel)
    (hfuel' : ts'.length < fuel') (h : body w.clean module fuel ports params ts = .ok (b, us)) :
    body w.clean' module fuel' ports params ts' =
      .ok ({ b with stop := t'.offset + t'.bytes.length }, us') := by
  induction fuel generalizing fuel' ts ts' ports params with
  | zero => omega
  | succ fuel ih =>
    obtain ⟨fuel', rfl⟩ : ∃ k, fuel' = k + 1 := ⟨fuel' - 1, by omega⟩
    have hends {ts : List Token} {ts' : List Token} (hts : ts = w.stop) (hts' : ts' = w.stop')
        (h : body w.clean module (fuel + 1) ports params ts = .ok (b, us)) :
        body w.clean' module (fuel' + 1) ports params ts' =
          .ok ({ b with stop := t'.offset + t'.bytes.length }, us') := by
      have ht : t.text = "endmodule" := by
        have hhead := w.head_stop
        rwa [hstop] at hhead
      have ht' : t'.text = "endmodule" := by
        have hhead := w.head_stop'
        rwa [hstop'] at hhead
      rw [hts, hstop, body_cons, ht] at h
      rw [hts', hstop', body_cons, ht']
      cases h
      rfl
    rcases hm.cases with ⟨hts, hts'⟩ | ⟨u, vs, vs', hu, rfl, rfl, hvs⟩
    · exact hends hts hts' h
    · rw [body_cons] at h ⊢
      rw [w.text_move]
      split at h
      · rename_i hend
        -- the end of the module is the last one, so nothing is left before it
        cases h
        have hle := hvs.stop_suffix.length_le
        rw [hstop, List.length_cons] at hle
        omega
      · rename_i hend
        rw [if_neg hend]
        obtain ⟨⟨a, xs⟩, hitem, h⟩ := bind_ok.1 h
        obtain ⟨hsuffix, hlt⟩ := bodyItem_consumes hitem
        rw [List.length_cons] at hlt hfuel hfuel'
        obtain ⟨ys, y, rfl, -⟩ := body_ends h (show xs.length < fuel by omega)
        have hleft := stop_suffix hstop hsuffix hm.stop_suffix
        obtain ⟨xs', hitem', hxs⟩ := w.bodyItem_local module ports params hm hitem hleft
        have hlt' := (bodyItem_consumes hitem').2
        rw [List.length_cons] at hlt'
        have hfuels : (ys ++ y :: us).length < fuel ∧ xs'.length < fuel' := by omega
        exact bind_ok.2 ⟨(a, xs'), hitem', ih hxs hfuels.1 hfuels.2 h⟩

/-- The rest of a module is read in the other source. -/
theorem portsAndBody_moved {module : String} {params : List Param} {b : Body} {t t' : Token}
    {us us' : List Token} (hm : w.Moved ts ts') (hstop : w.stop = t :: us)
    (hstop' : w.stop' = t' :: us') (h : portsAndBody w.clean module params ts = .ok (b, us)) :
    portsAndBody w.clean' module params ts' =
      .ok ({ b with stop := t'.offset + t'.bytes.length }, us') := by
  obtain ⟨ports, xs, ys, hports, hexpect, hbody⟩ := portsAndBody_ok.1 h
  obtain ⟨as, a, rfl, -⟩ := body_ends hbody (Nat.lt_succ_self _)
  have hxs := expect_consumes _ hexpect
  have hys := stop_suffix hstop (hxs.trans (portList_consumes _ hports)) hm.stop_suffix
  obtain ⟨xs', hports', hxs'⟩ := w.portList_local hm hports (hys.trans hxs)
  obtain ⟨ys', hexpect', hys'⟩ := w.expect_local (by decide) hxs' hexpect hys
  have hbody' := body_local hys' hstop hstop' (Nat.lt_succ_self _) (Nat.lt_succ_self _) hbody
  exact portsAndBody_ok.2 ⟨ports, xs', ys', hports', hexpect', hbody'⟩

/-- A module is read in the other source. -/
theorem moduleParts_moved {name : String} {b : Body} {t t' : Token} {us us' : List Token}
    (hm : w.Moved ts ts') (hstop : w.stop = t :: us) (hstop' : w.stop' = t' :: us')
    (h : moduleParts w.clean ts = .ok ((name, b), us)) :
    moduleParts w.clean' ts' = .ok ((name, { b with stop := t'.offset + t'.bytes.length }), us') := by
  rcases hm.cases with ⟨rfl, rfl⟩ | ⟨u, vs, vs', hu, rfl, rfl, hvs⟩
  · have ht : t.text = "endmodule" := by
      have hhead := w.head_stop
      rwa [hstop] at hhead
    have hname : t.isName = false := isName_of_reserved (by rw [ht]; decide)
    rw [hstop, moduleParts, hname] at h
    cases h
  · obtain ⟨hname, rfl, params, xs, hparams, h⟩ := moduleParts_ok.1 h
    obtain ⟨as, a, rfl, -⟩ := portsAndBody_ends h
    have hxs := stop_suffix hstop (paramList_consumes _ hparams) hvs.stop_suffix
    obtain ⟨xs', hparams', hxs'⟩ := w.paramList_local hvs hparams hxs
    exact moduleParts_ok.2 ⟨by rw [w.isName_move, hname], w.text_move u, params, xs', hparams',
      portsAndBody_moved hxs' hstop hstop' h⟩

end Window

end TaskLoom.Source
