import TaskLoom.Proofs.Hdl.Additions
import TaskLoom.Proofs.Hdl.Origin
import TaskLoom.Proofs.Hdl.Spelling

/-!
# Sources with another front

A source is a front, which begins its first module, and a tail.  When the front is replaced, the
tokens of the tail stand in other places and are read in the same way: the body of a module
(`body_tail`), the ports and the body (`portsAndBody_tail`) and the modules behind the first one
(`modulesFrom_tail`).  A body goes on with the parameters of its header, and it leaves the ports of
the header alone if it is read behind a header without ports (`body_params`, `body_bare`).

Main statement: if a source defines some modules, so does the source with another front, except for
what the fronts make of the first one (`parse_front`).  A module is made exactly if all its ports
are declared and its names are new (`toModule_ok_iff`).
-/

namespace TaskLoom

namespace Module

theorem addAll_ok_iff {m m' : Module} {items : List Item} :
    m.addAll items = .ok m' ↔ m.Admits (namesOf items) ∧ m' = m.pushAll items := by
  constructor
  · intro h
    refine ⟨?_, addAll_eq h⟩
    rcases m.addUntil_cases items with ⟨-, hadmits⟩ | ⟨before, i, after, e, -, hadd, -⟩
    · exact hadmits
    · rw [addAll, hadd] at h
      cases h
  · rintro ⟨hadmits, rfl⟩
    exact hadmits.addAll

end Module

namespace Source

open Text (bytes)

/-- A module is made of its ports and parameters if all ports are declared and no name is used
twice. -/
theorem toModule_ok_iff {name verbatim : String} {b : Body} {m : Module} :
    toModule name verbatim b = .ok m ↔ ∃ ps : List Port, b.ports = ps.map PortDecl.typed ∧
      m = .ofInterface name verbatim ps b.params ∧
      m.DeclaresOnce := by
  have hadmits (ps : List Port) (v : String) : (Module.new name).Admits
      (namesOf (ps.map .port ++ b.params.map .param)) ↔
        (Module.ofInterface name v ps b.params).DeclaresOnce := by
    have hnames : namesOf (ps.map .port ++ b.params.map .param) =
        (Module.ofInterface name v ps b.params).names := by
      simp [Module.names_ofInterface, namesOf_map_port, namesOf_map_param]
    rw [hnames]
    exact ⟨fun h => ⟨h.named, h.distinct⟩, fun h => ⟨h.named, fun _ _ => rfl, h.distinct⟩⟩
  constructor
  · intro h
    obtain ⟨m₁, hadd, h⟩ := bind_ok.1 h
    obtain ⟨m₂, hadd', h⟩ := bind_ok.1 h
    obtain ⟨ps, hps, hadd⟩ := addPorts_ok hadd
    have hall := Module.addAll_append.2 ⟨m₁, hadd, mapError_ok.1 hadd'⟩
    obtain ⟨hnew, rfl⟩ := Module.addAll_ok_iff.1 hall
    cases h
    rw [Module.pushAll_interface]
    exact ⟨ps, hps, rfl, (hadmits ps verbatim).1 hnew⟩
  · rintro ⟨ps, hps, rfl, honce⟩
    obtain ⟨m₁, hadd, hadd'⟩ := Module.addAll_append.1
      (Module.addAll_ok_iff.2 ⟨(hadmits ps verbatim).2 honce, rfl⟩)
    rw [Module.pushAll_interface] at hadd'
    rw [toModule, hps, addPorts_typed, hadd]
    exact bind_ok.2 ⟨m₁, rfl, bind_ok.2 ⟨_, mapError_ok.2 hadd', rfl⟩⟩

/-- Plain names that are new are declared besides those of a module. -/
theorem declaresOnce_extend {m m' : Module} (new : List String) (h : m.DeclaresOnce)
    (hperm : m'.names.Perm (new ++ m.names)) (hplain : ∀ n ∈ new, isPlainName n = true)
    (hnew : ∀ n ∈ new, n ∉ m.names) (hnodup : new.Nodup) : m'.DeclaresOnce := by
  refine ⟨fun hempty => ?_, hperm.nodup_iff.2 (List.nodup_append.2 ⟨hnodup, h.distinct, ?_⟩)⟩
  · rcases List.mem_append.1 (hperm.mem_iff.1 hempty) with hempty | hempty
    · exact absurd (hplain _ hempty) (by decide)
    · exact h.named hempty
  · rintro a ha b hb rfl
    exact hnew a ha hb

/-- A module does not depend on where its body stops. -/
theorem toModule_stop {name verbatim : String} {b : Body} {m : Module}
    (h : toModule name verbatim b = .ok m) (stop : Nat) :
    toModule name verbatim { b with stop := stop } = .ok m := h

/-! ### Bodies behind another header -/

section
variable {clean : List UInt8} {module : String} {ports ports' : List PortDecl}
  {params params' : List Param} {ts rest : List Token} {fuel : Nat} {b : Body}

/-- The parameters of an item come behind those before it, whatever they are. -/
theorem bodyItem_params
    (h : bodyItem clean module ports params ts = .ok ((ports', params'), rest)) :
    ∃ added, params' = params ++ added ∧
      ∀ qs, bodyItem clean module ports qs ts = .ok ((ports', qs ++ added), rest) := by
  cases bodyItem_ok.1 h with
  | subroutine ht =>
    refine ⟨[], (List.append_nil _).symm, fun qs => ?_⟩
    rw [List.append_nil]
    exact bodyItem_ok.2 (.subroutine ht)
  | @parameter t ts us rest ps ht hgroup hend =>
    exact ⟨ps, rfl, fun qs => bodyItem_ok.2 (.parameter ht hgroup hend)⟩
  | port hd hrange hnames hend =>
    refine ⟨[], (List.append_nil _).symm, fun qs => ?_⟩
    rw [List.append_nil]
    exact bodyItem_ok.2 (.port hd hrange hnames hend)
  | other hsub hparam hd =>
    refine ⟨[], (List.append_nil _).symm, fun qs => ?_⟩
    rw [List.append_nil]
    exact bodyItem_ok.2 (.other hsub hparam hd)

/-- An item that is read behind a header without ports declares none. -/
theorem bodyItem_bare (h : bodyItem clean module [] params ts = .ok ((ports', params'), rest)) :
    ports' = [] ∧ ∀ ds, bodyItem clean module ds params ts = .ok ((ds, params'), rest) := by
  cases bodyItem_ok.1 h with
  | subroutine ht => exact ⟨rfl, fun ds => bodyItem_ok.2 (.subroutine ht)⟩
  | parameter ht hgroup hend =>
    exact ⟨rfl, fun ds => bodyItem_ok.2 (.parameter ht hgroup hend)⟩
  | @port t ts us vs rest d r ports' hd hrange hnames hend =>
    -- no name is in an empty list of ports
    cases us with
    | nil => cases hnames
    | cons u us => cases hnames
  | other hsub hparam hd => exact ⟨rfl, fun ds => bodyItem_ok.2 (.other hsub hparam hd)⟩

theorem body_params (h : body clean module fuel ports params ts = .ok (b, rest)) :
    ∃ added, b.params = params ++ added ∧ ∀ qs, body clean module fuel ports qs ts =
      .ok ({ b with params := qs ++ added }, rest) := by
  induction fuel generalizing ts ports params with
  | zero =>
    cases ts with
    | nil => cases h
    | cons t ts =>
      cases h
      exact ⟨[], by simp, fun qs => by simp [body]⟩
  | succ fuel ih =>
    cases ts with
    | nil => cases h
    | cons t ts =>
      rw [body_cons] at h
      split at h
      · rename_i hend
        cases h
        exact ⟨[], by simp, fun qs => by simp [body_cons, hend]⟩
      · rename_i hend
        obtain ⟨⟨⟨ports', params'⟩, us⟩, hitem, h⟩ := bind_ok.1 h
        obtain ⟨added, rfl, hitems⟩ := bodyItem_params hitem
        obtain ⟨more, hb, hrest⟩ := ih h
        refine ⟨added ++ more, by rw [hb, List.append_assoc], fun qs => ?_⟩
        rw [body_cons, if_neg hend, ← List.append_assoc]
        exact bind_ok.2 ⟨_, hitems qs, hrest (qs ++ added)⟩

theorem body_bare (h : body clean module fuel [] params ts = .ok (b, rest)) :
    b.ports = [] ∧ ∀ ds, body clean module fuel ds params ts =
      .ok ({ b with ports := ds }, rest) := by
  induction fuel generalizing ts params with
  | zero =>
    cases ts with
    | nil => cases h
    | cons t ts =>
      cases h
      exact ⟨rfl, fun ds => by simp [body]⟩
  | succ fuel ih =>
    cases ts with
    | nil => cases h
    | cons t ts =>
      rw [body_cons] at h
      split at h
      · rename_i hend
        cases h
        exact ⟨rfl, fun ds => by simp [body_cons, hend]⟩
      · rename_i hend
        obtain ⟨⟨⟨ports', params'⟩, us⟩, hitem, h⟩ := bind_ok.1 h
        obtain ⟨rfl, hitems⟩ := bodyItem_bare hitem
        obtain ⟨hb, hrest⟩ := ih h
        refine ⟨hb, fun ds => ?_⟩
        rw [body_cons, if_neg hend]
        exact bind_ok.2 ⟨_, hitems ds, hrest ds⟩

theorem portsAndBody_params (h : portsAndBody clean module [] ts = .ok (b, rest))
    (qs : List Param) : portsAndBody clean module qs ts =
      .ok ({ b with params := qs ++ b.params }, rest) := by
  obtain ⟨ports, us, vs, hports, hexpect, hbody⟩ := portsAndBody_ok.1 h
  obtain ⟨added, hb, hall⟩ := body_params hbody
  rw [hb]
  exact portsAndBody_ok.2 ⟨ports, us, vs, hports, hexpect, hall qs⟩

end

/-! ### The tail of a source behind another front -/

section
variable {l c f q : List UInt8} {module name : String} {params : List Param} {t u : Token}
  {ts us rest : List Token} {b : Body} {fuel : Nat} {ms : List Module}

/-- The tokens of the tail `c` behind the fronts `l` and `l'`, up to a word that ends a module. -/
theorem exists_window (hsplit : tokensFrom l.length 0 c = us ++ t :: rest)
    (ht : t.text = "endmodule") (l' : List UInt8) :
    ∃ w : Window, w.clean = l ++ c ∧ w.clean' = l' ++ c ∧ w.stop = t :: rest ∧
      w.stop' = (t :: rest).map (Token.moved l.length l'.length) ∧
      w.Moved (tokensFrom l.length 0 c) (tokensFrom l'.length 0 c) := by
  have hwithin : ∀ v ∈ us, l.length ≤ v.offset ∧
      v.offset + v.bytes.length ≤ l.length + c.length := fun v hv =>
    tokensFrom_within (hsplit ▸ List.mem_append_left (t :: rest) hv)
  have hmoved := tokensFrom_moved l.length l'.length 0 0 c
  rw [Nat.add_zero, Nat.add_zero, hsplit, List.map_append] at hmoved
  refine ⟨Window.splice l [] l' [] c us (t :: rest)
    ((t :: rest).map (Token.moved l.length l'.length)) hwithin ht ht, ?_, ?_, rfl, rfl,
    us, List.Subset.refl us, hsplit, hmoved⟩
  · simp [Window.splice]
  · simp [Window.splice]

theorem portsAndBody_tail
    (h : portsAndBody (l ++ c) module params (tokensFrom l.length 0 c) = .ok (b, rest))
    (l' : List UInt8) :
    ∃ stop, portsAndBody (l' ++ c) module params (tokensFrom l'.length 0 c) =
        .ok ({ b with stop := stop }, rest.map (Token.moved l.length l'.length)) ∧
      rest ⊆ tokensFrom l.length 0 c := by
  obtain ⟨us, t, hsplit, ht, -⟩ := portsAndBody_ends h
  obtain ⟨w, hclean, hclean', hstop, hstop', hmoved⟩ := exists_window hsplit ht l'
  rw [← hclean] at h
  rw [← hclean']
  refine ⟨_, Window.portsAndBody_moved hmoved hstop hstop' h, fun v hv => ?_⟩
  rw [hsplit]
  exact List.mem_append_right us (List.mem_cons_of_mem t hv)

theorem body_tail {ports : List PortDecl}
    (h : body (l ++ c) module fuel ports params (tokensFrom l.length 0 c) = .ok (b, rest))
    (hfuel : (tokensFrom l.length 0 c).length < fuel) (l' : List UInt8) :
    ∃ stop, (∀ fuel', (tokensFrom l'.length 0 c).length < fuel' →
        body (l' ++ c) module fuel' ports params (tokensFrom l'.length 0 c) =
          .ok ({ b with stop := stop }, rest.map (Token.moved l.length l'.length))) ∧
      rest ⊆ tokensFrom l.length 0 c := by
  obtain ⟨us, t, hsplit, ht, -⟩ := body_ends h hfuel
  obtain ⟨w, hclean, hclean', hstop, hstop', hmoved⟩ := exists_window hsplit ht l'
  rw [← hclean] at h
  rw [← hclean']
  refine ⟨_, fun fuel' hfuel' => Window.body_local hmoved hstop hstop' hfuel hfuel' h,
    fun v hv => ?_⟩
  rw [hsplit]
  exact List.mem_append_right us (List.mem_cons_of_mem t hv)

/-- The piece of a module in the tail. -/
theorem drop_front (f q : List UInt8) (i : Nat) : (f ++ q).drop (f.length + i) = q.drop i :=
  List.drop_length_add_append i

/-- A module behind the first one. -/
theorem moduleParts_tail (hts : ts ⊆ tokensFrom l.length 0 c)
    (h : moduleParts (l ++ c) ts = .ok ((name, b), rest)) (l' : List UInt8) :
    l.length ≤ b.stop ∧ moduleParts (l' ++ c) (ts.map (Token.moved l.length l'.length)) =
      .ok ((name, { b with stop := b.stop - l.length + l'.length }),
        rest.map (Token.moved l.length l'.length)) := by
  obtain ⟨us, u, rfl, hu, hstop⟩ := moduleParts_ends h
  have hplace := (tokensFrom_within (hts (List.mem_append_right us List.mem_cons_self))).1
  have hall (v : Token) (hv : v ∈ us) :=
    tokensFrom_within (hts (List.mem_append_left (u :: rest) hv))
  have h' : moduleParts (l ++ (c ++ [])) (us ++ u :: rest) = .ok ((name, b), rest) := by
    rwa [List.append_nil]
  have hu' : (u.moved l.length l'.length).text = "endmodule" := hu
  have hread := moduleParts_spliced h' hall hu l' [] hu' (rest.map (Token.moved l.length l'.length))
  rw [List.append_nil, ← List.map_cons, ← List.map_append] at hread
  have hstop' : (u.moved l.length l'.length).offset + (u.moved l.length l'.length).bytes.length =
      b.stop - l.length + l'.length := by
    simp only [Token.moved, hstop]
    omega
  rw [hstop'] at hread
  exact ⟨by omega, hread⟩

/-- The modules behind the first one. -/
theorem modulesFrom_tail {f' l' : List UInt8} (hf : f.length = l.length)
    (hf' : f'.length = l'.length) (hts : ts ⊆ tokensFrom l.length 0 c) {fuel' : Nat}
    (hfuel : ts.length < fuel)
    (hfuel' : ts.length < fuel') (h : modulesFrom (f ++ q) (l ++ c) fuel ts = .ok ms) :
    modulesFrom (f' ++ q) (l' ++ c) fuel' (ts.map (Token.moved l.length l'.length)) = .ok ms := by
  induction fuel generalizing fuel' ts ms with
  | zero => omega
  | succ fuel ih =>
    obtain ⟨fuel', rfl⟩ : ∃ k, fuel' = k + 1 := ⟨fuel' - 1, by omega⟩
    cases ts with
    | nil =>
      cases h
      rfl
    | cons t ts =>
      rw [List.length_cons] at hfuel hfuel'
      rw [List.cons_subset] at hts
      have hplace := (tokensFrom_within hts.1).1
      cases hbegins : beginsModule t with
      | false =>
        have hbegins' : beginsModule (t.moved l.length l'.length) = false := hbegins
        rw [modulesFrom_skip hbegins] at h
        rw [List.map_cons, modulesFrom_skip hbegins']
        exact ih hts.2 (by omega) (by omega) h
      | true =>
        obtain ⟨name, b, rest, m, ms', hparts, hm, hms, rfl⟩ := (modulesFrom_module hbegins).1 h
        obtain ⟨hstop, hparts'⟩ := moduleParts_tail hts.2 hparts l'
        obtain ⟨us, u, rfl, -⟩ := moduleParts_ends hparts
        rw [List.length_append, List.length_cons] at hfuel hfuel'
        have hbegins' : beginsModule (t.moved l.length l'.length) = true := hbegins
        rw [List.map_cons]
        refine (modulesFrom_module hbegins').2 ⟨name, _, _, m, ms', hparts', ?_, ?_, rfl⟩
        · obtain ⟨i, hi⟩ : ∃ i, t.offset = l.length + i := ⟨t.offset - l.length, by omega⟩
          have hi' : (t.moved l.length l'.length).offset = f'.length + i := by
            simp only [Token.moved, hf', hi]
            omega
          have hlength : b.stop - l.length + l'.length - (f'.length + i) =
              b.stop - (f.length + i) := by
            omega
          have hpiece : (f' ++ q).drop (f'.length + i) = (f ++ q).drop (f.length + i) := by
            rw [drop_front, drop_front]
          rw [hi, ← hf] at hm
          simp only [hi', hlength, hpiece]
          exact toModule_stop hm _
        · exact ih (fun v hv => hts.2 (List.mem_append_right us (List.mem_cons_of_mem u hv)))
            (by omega) (by omega) hms

end

/-- A text that stands behind something on its line, without comments, attributes and
directives. -/
def tailBytes (tail : String) : List UInt8 := stripFrom 0 0 false (bytes tail)

section
variable {ws ws₀ : List String} {front front₀ : String} {m : Module} {ms : List Module}

/-- A source that begins with the keyword of a module. -/
theorem Spells.parse (h : Spells ("module" :: ws) (bytes front)) (tail : String) :
    ∃ l t ts fuel, l.length = (bytes front).length ∧ beginsModule t = true ∧
      Spelled (l ++ tailBytes tail) ws ts ∧
      (ts ++ tokensFrom l.length 0 (tailBytes tail)).length < fuel ∧
      Source.parse (front ++ tail) = modulesFrom (bytes front ++ bytes tail) (l ++ tailBytes tail)
        (fuel + 1) (t :: (ts ++ tokensFrom l.length 0 (tailBytes tail))) := by
  obtain ⟨l, ts, hlength, hstrip, htokens, hspelled⟩ := h.tokens (bytes tail)
  obtain ⟨t, ts', rfl, ht, hspelled'⟩ := hspelled.fixed (by decide)
  have hbegins : beginsModule t = true := by
    rw [beginsModule, ht]
    decide
  refine ⟨l, t, ts', _, hlength, hbegins, hspelled', Nat.lt_succ_self _, ?_⟩
  simp only [Source.parse, Text.bytes_append]
  rw [htokens, hstrip]
  rfl

/-- With another front the source has the same modules behind the first one, which is made of what
is read behind that front. -/
theorem parse_front {tail : String} {P : Body → Body → Prop}
    (h₀ : Spells ("module" :: ws₀) (bytes front₀)) (h : Spells ("module" :: ws) (bytes front))
    (hparse : Source.parse (front₀ ++ tail) = .ok (m :: ms))
    (hparts : ∀ l₀ l ts₀ ts name b rest, Spelled (l₀ ++ tailBytes tail) ws₀ ts₀ →
      Spelled (l ++ tailBytes tail) ws ts →
      moduleParts (l₀ ++ tailBytes tail) (ts₀ ++ tokensFrom l₀.length 0 (tailBytes tail)) =
        .ok ((name, b), rest) →
      rest ⊆ tokensFrom l₀.length 0 (tailBytes tail) ∧ ∃ b', P b b' ∧
        moduleParts (l ++ tailBytes tail) (ts ++ tokensFrom l.length 0 (tailBytes tail)) =
          .ok ((name, b'), rest.map (Token.moved l₀.length l.length))) :
    ∃ name v v' b b', P b b' ∧ toModule name v b = .ok m ∧
      ∀ m', toModule name v' b' = .ok m' → Source.parse (front ++ tail) = .ok (m' :: ms) := by
  obtain ⟨l₀, t₀, ts₀, fuel₀, hlength₀, hbegins₀, hspelled₀, hfuel₀, hparse₀⟩ := h₀.parse tail
  obtain ⟨l, t, ts, fuel, hlength, hbegins, hspelled, hfuel, hparse'⟩ := h.parse tail
  rw [hparse₀] at hparse
  obtain ⟨name, b, rest, m', ms', hmodule, hm, hms, heq⟩ := (modulesFrom_module hbegins₀).1 hparse
  obtain ⟨rfl, rfl⟩ := List.cons.inj heq
  obtain ⟨hrest, b', hP, hmodule'⟩ := hparts l₀ l ts₀ ts name b rest hspelled₀ hspelled hmodule
  obtain ⟨us, u, husrest, -⟩ := moduleParts_ends hmodule
  obtain ⟨vs, v, hvsrest, -⟩ := moduleParts_ends hmodule'
  have hle : rest.length < fuel₀ ∧ rest.length < fuel := by
    have hlen₀ := congrArg List.length husrest
    have hlen := congrArg List.length hvsrest
    simp only [List.length_append, List.length_cons, List.length_map] at hlen₀ hlen hfuel₀ hfuel
    omega
  have hms' := modulesFrom_tail hlength₀.symm hlength.symm hrest hle.1 hle.2 hms
  have hpieces (m' : Module) (hm' : toModule name (Text.trim (Text.ofBytes
      (((bytes front ++ bytes tail).drop t.offset).take (b'.stop - t.offset))) ++ "\n") b' =
        .ok m') :
      Source.parse (front ++ tail) = .ok (m' :: ms) := by
    rw [hparse']
    exact (modulesFrom_module hbegins).2 ⟨name, b', _, m', ms, hmodule', hm', hms', rfl⟩
  exact ⟨name, _, _, b, b', hP, hm, hpieces⟩

end

end Source

end TaskLoom
