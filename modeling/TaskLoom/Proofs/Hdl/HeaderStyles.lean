import TaskLoom.Proofs.Hdl.HeaderParams
import TaskLoom.Proofs.Hdl.HeaderPorts

/-!
# Styles of headers

A header may have a list of parameters (`parameterPart`), and it declares its ports or only names
them.  In the second case the ports are declared in the body, where declarations of parameters,
functions and other words may stand before and between them (`BodyPiece`).  What one piece adds to
the ports and the parameters that are known is `body_piece`; by induction over the pieces all ports
of the header have their types in the end (`body_pieces`, `portsAndBody_naming`).

Main statement: both styles give the same ports, in the order of the header (`header_styles`).
-/

namespace TaskLoom

namespace Source

open Text (bytes)

/-! ### Pieces of a body -/

/-- What may stand in a body: a declaration of ports or of parameters, a function or a task, or a
word that begins none of these. -/
inductive BodyPiece where
  | portDecl (g : PortGroup)
  | paramDecl (g : ParamGroup)
  | subroutine (word : String) (inside : List String)
  | other (word : String)

namespace BodyPiece

def words : BodyPiece → List String
  | portDecl g => g.words ++ [";"]
  | paramDecl g => g.words ++ [";"]
  | subroutine word inside => word :: (inside ++ ["end" ++ word])
  | other word => [word]

def ports : BodyPiece → List Port
  | portDecl g => g.ports
  | paramDecl _ | subroutine _ _ | other _ => []

def params : BodyPiece → List Param
  | paramDecl g => g.params
  | portDecl _ | subroutine _ _ | other _ => []

/-- The declarations are proper, the inside of a function or a task does not end it, and any other
word means nothing in a body. -/
def Proper : BodyPiece → Prop
  | portDecl g => g.Proper
  | paramDecl g => g.Proper
  | subroutine word inside => (word = "function" ∨ word = "task") ∧
      ∀ w ∈ inside, isTokenText w = true ∧ w ≠ "end" ++ word
  | other word => isTokenText word = true ∧ word ∉ bodyWords

theorem Proper.plain {p : BodyPiece} (h : p.Proper) {q : Param} (hq : q ∈ p.params) :
    isPlainName q.name = true := by
  cases p with
  | paramDecl g =>
    have hg : g.Proper := h
    exact hg.plain hq
  | portDecl | subroutine | other => cases hq

end BodyPiece

section
variable {clean : List UInt8} {ws inside : List String} {ts : List Token} {stop : String}
  {ps : List Port} {piece : BodyPiece} {pieces : List BodyPiece}

/-- The words up to one that ends them. -/
theorem dropWhile_spelled (hinside : ∀ w ∈ inside, isTokenText w = true ∧ w ≠ stop)
    (hstop : isTokenText stop = true) (h : Spelled clean (inside ++ stop :: ws) ts) :
    ∃ ts', Spelled clean ws ts' ∧ ts'.length < ts.length ∧
      ∀ q, ((ts ++ q).dropWhile (·.text != stop)).drop 1 = ts' ++ q := by
  induction inside generalizing ts with
  | nil =>
    obtain ⟨t, ts', rfl, ht, h'⟩ := Spelled.fixed h hstop
    exact ⟨ts', h', by simp, fun q => by simp [ht]⟩
  | cons w inside ih =>
    obtain ⟨⟨hw, hne⟩, hinside⟩ := List.forall_mem_cons.1 hinside
    obtain ⟨t, us, rfl, ht, hus⟩ := Spelled.fixed h hw
    obtain ⟨ts', h', hlt, hread⟩ := ih hinside hus
    refine ⟨ts', h', Nat.lt_succ_of_lt hlt, fun q => ?_⟩
    rw [List.cons_append, List.dropWhile_cons_of_pos (by simp [ht, hne])]
    exact hread q

/-- One declaration of parameters in a body. -/
theorem body_paramGroup (module : String) {g : ParamGroup} (hg : g.Proper)
    (h : Spelled clean (g.words ++ ";" :: ws) ts) :
    ∃ ts', Spelled clean ws ts' ∧ ts'.length < ts.length ∧ ∀ q ds params fuel,
      body clean module (fuel + 1) ds params (ts ++ q) =
        body clean module fuel ds (params ++ g.params) (ts' ++ q) := by
  obtain ⟨ts₁, h₁, hlt, hread⟩ := paramGroup_stops false hg (.inl (.inr rfl)) h
  obtain ⟨semicolon, ts', rfl, hsemicolon, h'⟩ := h₁.fixed (by decide)
  rw [List.length_cons] at hlt
  have hkeyword : isTokenText (paramKeyword g.isLocal) = true ∧
      (paramKeyword g.isLocal == "endmodule") = false ∧
      (paramKeyword g.isLocal == "parameter" || paramKeyword g.isLocal == "localparam") = true := by
    cases g.isLocal <;> decide
  obtain ⟨t, us, rfl, ht, -⟩ := Spelled.fixed h hkeyword.1
  refine ⟨ts', h', by omega, fun q ds params fuel => ?_⟩
  have hexpect : expect ";" (semicolon :: ts' ++ q) = .ok ((), ts' ++ q) := by
    simp [expect, hsemicolon]
  have hitem : bodyItem clean module ds params (t :: (us ++ q)) =
      .ok ((ds, params ++ g.params), ts' ++ q) :=
    bodyItem_ok.2 (.parameter (ht ▸ hkeyword.2.2) (hread q) hexpect)
  rw [List.cons_append, body_cons, ht, hkeyword.2.1, hitem]
  rfl

/-- A function or a task in a body is skipped. -/
theorem body_subroutine (module : String) {word : String}
    (hword : word = "function" ∨ word = "task")
    (hinside : ∀ w ∈ inside, isTokenText w = true ∧ w ≠ "end" ++ word)
    (h : Spelled clean (word :: (inside ++ ("end" ++ word) :: ws)) ts) :
    ∃ ts', Spelled clean ws ts' ∧ ts'.length < ts.length ∧ ∀ q ds params fuel,
      body clean module (fuel + 1) ds params (ts ++ q) =
        body clean module fuel ds params (ts' ++ q) := by
  have hwords : isTokenText word = true ∧ isTokenText ("end" ++ word) = true ∧
      (word == "endmodule") = false ∧ (word == "function" || word == "task") = true := by
    rcases hword with rfl | rfl <;> decide
  obtain ⟨t, us, rfl, ht, hus⟩ := h.fixed hwords.1
  obtain ⟨ts', h', hlt, hread⟩ := dropWhile_spelled hinside hwords.2.1 hus
  refine ⟨ts', h', Nat.lt_succ_of_lt hlt, fun q ds params fuel => ?_⟩
  have hitem : bodyItem clean module ds params (t :: (us ++ q)) =
      .ok ((ds, params), ts' ++ q) := by
    rw [← hread q, ← ht]
    exact bodyItem_ok.2 (.subroutine (ht ▸ hwords.2.2.2))
  rw [List.cons_append, body_cons, ht, hwords.2.2.1, hitem]
  rfl

/-- One piece of a body. -/
theorem body_piece (module : String) (hnodup : (ps.map Port.name).Nodup) (hpiece : piece.Proper)
    (hports : ∀ p ∈ piece.ports, p ∈ ps) (h : Spelled clean (piece.words ++ ws) ts) :
    ∃ ts', Spelled clean ws ts' ∧ ts'.length < ts.length ∧ ∀ q done params fuel,
      body clean module (fuel + 1) (declaredBy ps done) params (ts ++ q) =
        body clean module fuel (declaredBy ps ((piece.ports.map Port.name).reverse ++ done))
          (params ++ piece.params) (ts' ++ q) := by
  cases piece with
  | portDecl g =>
    rw [BodyPiece.words, List.append_assoc, List.singleton_append] at h
    obtain ⟨ts', h', hlt, hread⟩ := body_group module hnodup hpiece hports h
    refine ⟨ts', h', hlt, fun q done params fuel => ?_⟩
    rw [hread, BodyPiece.ports, BodyPiece.params, g.names_ports, List.append_nil]
  | paramDecl g =>
    rw [BodyPiece.words, List.append_assoc, List.singleton_append] at h
    obtain ⟨ts', h', hlt, hread⟩ := body_paramGroup module (g := g) hpiece h
    exact ⟨ts', h', hlt, fun q done params fuel => hread q _ params fuel⟩
  | subroutine word inside =>
    rw [BodyPiece.words, List.cons_append, List.append_assoc, List.singleton_append] at h
    obtain ⟨ts', h', hlt, hread⟩ := body_subroutine module hpiece.1 hpiece.2 h
    refine ⟨ts', h', hlt, fun q done params fuel => ?_⟩
    rw [hread, BodyPiece.params, List.append_nil]
    rfl
  | other word =>
    obtain ⟨t, ts', rfl, ht, h'⟩ := Spelled.fixed h hpiece.1
    refine ⟨ts', h', Nat.lt_succ_self _, fun q done params fuel => ?_⟩
    rw [List.cons_append, body_skip (ht ▸ hpiece.2), BodyPiece.params, List.append_nil]
    rfl

/-- All pieces of a body. -/
theorem body_pieces (module : String) (hnodup : (ps.map Port.name).Nodup)
    (hpieces : ∀ p ∈ pieces, p.Proper) (hports : ∀ p ∈ pieces.flatMap BodyPiece.ports, p ∈ ps)
    (h : Spelled clean (pieces.flatMap BodyPiece.words) ts) (q : List Token)
    (params : List Param) (done : List String) {fuel : Nat} (hfuel : (ts ++ q).length < fuel) :
    ∃ fuel', q.length < fuel' ∧
      body clean module fuel (declaredBy ps done) params (ts ++ q) =
        body clean module fuel'
          (declaredBy ps (((pieces.flatMap BodyPiece.ports).map Port.name).reverse ++ done))
          (params ++ pieces.flatMap BodyPiece.params) q := by
  induction pieces generalizing ts params done fuel with
  | nil =>
    cases h
    exact ⟨fuel, hfuel, by simp⟩
  | cons piece pieces ih =>
    obtain ⟨hpiece, hpieces⟩ := List.forall_mem_cons.1 hpieces
    rw [List.flatMap_cons, List.forall_mem_append] at hports
    rw [List.flatMap_cons] at h
    obtain ⟨ts', h', hlt, hread⟩ := body_piece module hnodup hpiece hports.1 h
    rw [List.length_append] at hfuel
    obtain ⟨fuel, rfl⟩ : ∃ k, fuel = k + 1 := ⟨fuel - 1, by omega⟩
    have hfuel₁ : (ts' ++ q).length < fuel := by
      rw [List.length_append]
      omega
    obtain ⟨fuel', hfuel', hrest⟩ := ih hpieces hports.2 h' (params ++ piece.params)
      ((piece.ports.map Port.name).reverse ++ done) hfuel₁
    refine ⟨fuel', hfuel', ?_⟩
    rw [hread, hrest, List.flatMap_cons, List.flatMap_cons, List.map_append, List.reverse_append,
      List.append_assoc, List.append_assoc]

end

/-! ### Modules -/

/-- The words of the parameters of a header, if it has a list of them. -/
def parameterPart : Option (List ParamGroup) → List String
  | none => []
  | some pgs => paramListWords pgs

/-- The parameters of a header. -/
def listedParams (pgs : Option (List ParamGroup)) : List Param :=
  (pgs.getD []).flatMap ParamGroup.params

/-- The words of a header that declares its ports. -/
def declaringHeader (gs : List PortGroup) : List String :=
  "(" :: (commaWords (gs.map PortGroup.words) ++ [")", ";"])

/-- The words of a header that only names its ports, and of the pieces behind it. -/
def namingHeader (names : List String) (pieces : List BodyPiece) : List String :=
  "(" :: (nameWords names ++ ")" :: ";" :: pieces.flatMap BodyPiece.words)

section
variable {clean : List UInt8} {module name : String} {ws : List String} {t : Token}
  {ts us rest : List Token} {ds : List PortDecl} {params qs : List Param} {gs : List PortGroup}
  {pgs : Option (List ParamGroup)} {pieces : List BodyPiece} {ps : List Port}

/-- A header without parameters. -/
theorem paramList_none (ht : t.text = "(") : paramList clean (t :: ts) = .ok ([], t :: ts) := by
  simp only [paramList, headText, ht]
  rfl

/-- The parameters of a header, in front of its ports. -/
theorem parameterPart_read (hpgs : ∀ g ∈ pgs.getD [], g.Proper)
    (hshared : ∀ g ∈ (pgs.getD []).tail, g.isLocal = false)
    (h : Spelled clean (parameterPart pgs ++ "(" :: ws) ts) :
    ∃ ts', Spelled clean ("(" :: ws) ts' ∧
      ∀ q, paramList clean (ts ++ q) = .ok (listedParams pgs, ts' ++ q) := by
  cases pgs with
  | none =>
    obtain ⟨t, us, rfl, ht, -⟩ := Spelled.fixed h (by decide)
    exact ⟨t :: us, h, fun q => paramList_none ht⟩
  | some pgs =>
    obtain ⟨us, ts', rfl, hus, h'⟩ := h.append
    refine ⟨ts', h', fun q => ?_⟩
    rw [List.append_assoc]
    exact paramList_read hpgs hshared hus (ts' ++ q)

/-- The ports of a header in parentheses, and the semicolon behind it. -/
theorem portsAndBody_header (ht : t.text = "(") (h : ReadsNames clean none ts ds us)
    (hend : expect ";" us = .ok ((), rest)) : portsAndBody clean module params (t :: ts) =
      body clean module (rest.length + 1) ds params rest := by
  have hports : portList clean (t :: ts) = .ok (ds, us) := by
    have hread := h ((t :: ts).length + 1) (by simp only [List.length_cons]; omega)
    simpa [portList, headText, ht] using hread
  simp only [portsAndBody, bind, Except.bind, hports, hend]

/-- Behind a header that declares its ports, all of them have their types. -/
theorem portsAndBody_declaring (hgs : ∀ g ∈ gs, g.Proper)
    (h : Spelled clean (declaringHeader gs) ts) (q : List Token) :
    portsAndBody clean module params (ts ++ q) =
      body clean module (q.length + 1) ((gs.flatMap PortGroup.ports).map PortDecl.typed) params
        q := by
  obtain ⟨t, ts₁, rfl, ht, h₁⟩ := h.fixed (by decide)
  obtain ⟨ts₂, h₂, hread⟩ := readsNames_groups hgs h₁
  obtain ⟨semicolon, us, rfl, hsemicolon, hnil⟩ := h₂.fixed (by decide)
  cases hnil
  exact portsAndBody_header ht (hread none q) (by simp [expect, hsemicolon])

/-- Behind the declarations for a header that only names its ports, all of them have their types. -/
theorem portsAndBody_naming (hplain : ∀ p ∈ ps, isPlainName p.name = true)
    (hpieces : ∀ p ∈ pieces, p.Proper) (hnodup : (ps.map Port.name).Nodup)
    (hports : (pieces.flatMap BodyPiece.ports).Perm ps)
    (h : Spelled clean (namingHeader (ps.map Port.name) pieces) ts) (q : List Token) :
    ∃ fuel, q.length < fuel ∧ portsAndBody clean module params (ts ++ q) =
      body clean module fuel (ps.map PortDecl.typed)
        (params ++ pieces.flatMap BodyPiece.params) q := by
  obtain ⟨t, ts₁, rfl, ht, h₁⟩ := h.fixed (by decide)
  obtain ⟨ts₂, h₂, hread⟩ := readsNames_bare (List.forall_mem_map.2 hplain) h₁
  obtain ⟨semicolon, ts₃, rfl, hsemicolon, h₃⟩ := h₂.fixed (by decide)
  obtain ⟨fuel, hfuel, hbody⟩ := body_pieces module hnodup hpieces
    (fun p hp => hports.mem_iff.1 hp) h₃ q params [] (Nat.lt_succ_self _)
  refine ⟨fuel, hfuel, ?_⟩
  have hdone : ∀ p ∈ ps,
      p.name ∈ ((pieces.flatMap BodyPiece.ports).map Port.name).reverse ++ [] := by
    intro p hp
    rw [List.append_nil, List.mem_reverse]
    exact List.mem_map_of_mem (hports.mem_iff.2 hp)
  rw [declaredBy_nil, declaredBy_all hdone] at hbody
  rw [← hbody]
  exact portsAndBody_header ht (hread q) (by simp [expect, hsemicolon])

variable {front front' front₀ tail : String} {m : Module} {ms : List Module}

/-- A front that leaves the reader before the tail with some parameters and with all its ports typed
gives these ports and parameters. -/
theorem parse_ports (hname : isPlainName name = true)
    (hplain : ∀ n ∈ ps.map Port.name ++ qs.map Param.name, isPlainName n = true)
    (hnodup : (ps.map Port.name ++ qs.map Param.name).Nodup)
    (hnew : ∀ n ∈ ps.map Port.name ++ qs.map Param.name, n ∉ m.names)
    (h : Spells ("module" :: name :: ws) (bytes front))
    (h₀ : Spells ("module" :: name :: declaringHeader []) (bytes front₀))
    (hparse : parse (front₀ ++ tail) = .ok (m :: ms))
    (hread : ∀ clean ts q, Spelled clean ws ts → ∃ params us fuel, q.length < fuel ∧
      paramList clean (ts ++ q) = .ok (params, us) ∧
      portsAndBody clean name params us = body clean name fuel (ps.map PortDecl.typed) qs q) :
    ∃ verbatim, parse (front ++ tail) =
      .ok (.ofInterface m.name verbatim ps (qs ++ m.params) :: ms) := by
  have hparts := parse_front (P := fun b b' => b.ports = [] ∧ b'.ports = ps.map PortDecl.typed ∧
    b'.params = qs ++ b.params) h₀ h hparse ?_
  · obtain ⟨name', v, v', b, b', ⟨hports, hports', hparams⟩, hm, hall⟩ := hparts
    obtain ⟨ps₀, hps₀, rfl, honce⟩ := toModule_ok_iff.1 hm
    obtain rfl : ps₀ = [] := by
      rw [hports] at hps₀
      exact List.map_eq_nil_iff.1 hps₀.symm
    refine ⟨v', hall _ (toModule_ok_iff.2 ⟨ps, hports', by rw [hparams]; rfl, ?_⟩)⟩
    refine declaresOnce_extend _ honce ?_ hplain hnew hnodup
    rw [Module.names_ofInterface, Module.names_ofInterface, List.map_append, ← List.append_assoc]
    exact .refl _
  · intro l₀ l ts₀ ts name' b rest hspelled₀ hspelled hmodule
    obtain ⟨t₀, us₀, rfl, ht₀, -, hspelled₀⟩ := hspelled₀.name hname
    obtain ⟨t, us, rfl, ht, hisName, hspelled⟩ := hspelled.name hname
    rw [List.cons_append] at hmodule ⊢
    obtain ⟨-, rfl, params, vs, hlist, hrest⟩ := moduleParts_ok.1 hmodule
    obtain ⟨u₀, vs₀, rfl, hu₀, -⟩ := Spelled.fixed hspelled₀ (by decide)
    rw [List.cons_append, paramList_none hu₀] at hlist
    obtain ⟨rfl, rfl⟩ := Prod.mk.inj (Except.ok.inj hlist)
    rw [← List.cons_append, portsAndBody_declaring (by simp) hspelled₀] at hrest
    obtain ⟨hports, hbare⟩ := body_bare hrest
    obtain ⟨added, hadded, hall⟩ := body_params (hbare (ps.map PortDecl.typed))
    obtain ⟨stop, htail, hsub⟩ := body_tail (hall qs) (Nat.lt_succ_self _) l
    obtain ⟨params, vs, fuel, hfuel, hlist, hbody⟩ :=
      hread _ us (tokensFrom l.length 0 (tailBytes tail)) hspelled
    rw [ht₀, ← ht] at htail ⊢
    rw [← ht] at hbody
    refine ⟨hsub, ⟨ps.map PortDecl.typed, qs ++ b.params, stop⟩, ⟨hports, rfl, rfl⟩,
      moduleParts_ok.2 ⟨hisName, rfl, params, vs, hlist, ?_⟩⟩
    rw [hbody, htail fuel hfuel, hadded]
    rfl

/-- Whether the header of a module declares its ports, each name or some names in a row behind one
direction, or only names them and the body declares them, in any order and in any groups, with
parameters, functions and other words in between: the module has the same ports, in the order of the
header.  Its parameters are those of the header, if it has a list of them, and those of the body.

The module is compared with the one whose header has neither ports nor parameters; all sources have
the same tail, which may be anything. -/
theorem header_styles (hname : isPlainName name = true)
    (hpgs : ∀ g ∈ pgs.getD [], g.Proper) (hshared : ∀ g ∈ (pgs.getD []).tail, g.isLocal = false)
    (hgs : ∀ g ∈ gs, g.Proper) (hpieces : ∀ p ∈ pieces, p.Proper)
    (hports : gs.flatMap PortGroup.ports = ps)
    (hports' : (pieces.flatMap BodyPiece.ports).Perm ps)
    (hqs : qs = listedParams pgs ++ pieces.flatMap BodyPiece.params)
    (hnodup : (ps.map Port.name ++ qs.map Param.name).Nodup)
    (hnew : ∀ n ∈ ps.map Port.name ++ qs.map Param.name, n ∉ m.names)
    (h : Spells ("module" :: name :: (parameterPart pgs ++ declaringHeader gs)) (bytes front))
    (h' : Spells ("module" :: name :: (parameterPart pgs ++
      namingHeader (ps.map Port.name) pieces)) (bytes front'))
    (h₀ : Spells ("module" :: name :: declaringHeader []) (bytes front₀))
    (hparse : parse (front₀ ++ tail) = .ok (m :: ms)) :
    (∃ verbatim, parse (front ++ tail) =
      .ok (.ofInterface m.name verbatim ps (listedParams pgs ++ m.params) :: ms)) ∧
    ∃ verbatim, parse (front' ++ tail) =
      .ok (.ofInterface m.name verbatim ps (qs ++ m.params) :: ms) := by
  have hplain : ∀ p ∈ ps, isPlainName p.name = true := by
    rintro p hp
    obtain ⟨g, hg, hp⟩ := List.mem_flatMap.1 (hports ▸ hp)
    exact (hgs g hg).plain hp
  have hplainPgs : ∀ p ∈ listedParams pgs, isPlainName p.name = true := by
    rintro p hp
    obtain ⟨g, hg, hp⟩ := List.mem_flatMap.1 hp
    exact (hpgs g hg).plain hp
  have hplainQs : ∀ p ∈ qs, isPlainName p.name = true := by
    rw [hqs, List.forall_mem_append]
    refine ⟨hplainPgs, fun p hp => ?_⟩
    obtain ⟨piece, hpiece, hp⟩ := List.mem_flatMap.1 hp
    exact (hpieces piece hpiece).plain hp
  have hsub : (ps.map Port.name ++ (listedParams pgs).map Param.name).Sublist
      (ps.map Port.name ++ qs.map Param.name) := by
    rw [hqs]
    exact (List.Sublist.refl _).append ((List.sublist_append_left _ _).map _)
  have hall {qs : List Param} (hqs : ∀ p ∈ qs, isPlainName p.name = true) :
      ∀ n ∈ ps.map Port.name ++ qs.map Param.name, isPlainName n = true :=
    List.forall_mem_append.2 ⟨List.forall_mem_map.2 hplain, List.forall_mem_map.2 hqs⟩
  refine ⟨parse_ports hname (hall hplainPgs) (hnodup.sublist hsub)
    (fun n hn => hnew n (hsub.subset hn)) h h₀ hparse fun clean ts q hts => ?_,
    parse_ports hname (hall hplainQs) hnodup hnew h' h₀ hparse fun clean ts q hts => ?_⟩
  · obtain ⟨us, hus, hread⟩ := parameterPart_read hpgs hshared hts
    exact ⟨_, _, _, Nat.lt_succ_self _, hread q, hports ▸ portsAndBody_declaring hgs hus q⟩
  · obtain ⟨us, hus, hread⟩ := parameterPart_read hpgs hshared hts
    have hnames := (List.nodup_append.1 hnodup).1
    obtain ⟨fuel, hfuel, hbody⟩ := portsAndBody_naming hplain hpieces hnames hports' hus q
    exact ⟨_, _, fuel, hfuel, hread q, hqs ▸ hbody⟩

end

/-- Three ports, two of them with the same direction. -/
def threePorts : List Port :=
  [⟨"a", .input, none⟩, ⟨"b", .input, none⟩, ⟨"q", .output, some ⟨"W - 1", "0"⟩⟩]

/-- A header that declares them. -/
def threeDeclared : List PortGroup :=
  [{ direction := .input, first := "a", more := ["b"] },
   { direction := .output, types := ["reg"], range := some ⟨"W - 1", "0"⟩, first := "q" }]

/-- Their declarations in a body, in another order, with other declarations before and between
them. -/
def threeCompleted : List BodyPiece :=
  [.paramDecl { isLocal := true, range := some ⟨"1", "0"⟩, first := ("MODE", "2'b01") },
   .portDecl ⟨.output, ["reg", "signed"], some ⟨"W - 1", "0"⟩, "q", []⟩,
   .other "reg", .other "s", .other ";",
   .subroutine "function" ["f", ";", "input", "x", ";", "f", "=", "x", ";"],
   .portDecl { direction := .input, types := ["wire"], first := "b", more := ["a"] }]

/-- A parameter of the header. -/
def oneListed : Option (List ParamGroup) := some [{ first := ("W", "4") }]

def depthTail : String := "\n  parameter D = W;\nendmodule\n"

def depthModule : Module :=
  .ofInterface "m" ("module m ();" ++ depthTail) [] [{ name := "D", value := "W" }]

/-- The ports are the same in both styles, with a comment or an attribute between the
declarations. -/
theorem header_styles_three :
    let declaring := "module m #(parameter W = 4) (input a, b, /* data */ output reg [W - 1:0] q);"
    let naming := "module m #(parameter W = 4) (a, b, q); localparam [1:0] MODE = 2'b01; " ++
      "output reg signed [W - 1:0] q; (* keep *) reg s; " ++
      "function f; input x; f = x; endfunction input wire b, a;"
    Spells ("module" :: "m" :: (parameterPart oneListed ++ declaringHeader threeDeclared))
      (bytes declaring) ∧
    Spells ("module" :: "m" :: (parameterPart oneListed ++
      namingHeader ["a", "b", "q"] threeCompleted)) (bytes naming) ∧
    parse ("module m ();" ++ depthTail) = .ok [depthModule] ∧
    (∃ verbatim, parse (declaring ++ depthTail) = .ok [.ofInterface "m" verbatim threePorts
      [{ name := "W", value := "4" }, { name := "D", value := "W" }]]) ∧
    ∃ verbatim, parse (naming ++ depthTail) = .ok [.ofInterface "m" verbatim threePorts
      [{ name := "W", value := "4" }, ⟨"MODE", "2'b01", some ⟨"1", "0"⟩, true⟩,
        { name := "D", value := "W" }]] := by
  intro declaring naming
  have hdeclaring : bytes declaring = bytes "module m #(parameter W = 4) (input a, b, " ++
      ((Filler.block (bytes " data ")).bytes ++ bytes " output reg [W - 1:0] q);") := by
    decide +kernel
  have hnaming : bytes naming = bytes ("module m #(parameter W = 4) (a, b, q); " ++
      "localparam [1:0] MODE = 2'b01; output reg signed [W - 1:0] q; ") ++
      ((Filler.attr (bytes " keep ")).bytes ++
        bytes " reg s; function f; input x; f = x; endfunction input wire b, a;") := by
    decide +kernel
  have hspells : Spells ("module" :: "m" :: (parameterPart oneListed ++
      declaringHeader threeDeclared)) (bytes declaring) :=
    hdeclaring ▸ .of_filler (by decide) (by decide) (by decide) (by decide +kernel)
  have hspells' : Spells ("module" :: "m" :: (parameterPart oneListed ++
      namingHeader (threePorts.map Port.name) threeCompleted)) (bytes naming) :=
    hnaming ▸ .of_filler (by decide) (by decide) (by decide) (by decide +kernel)
  have hempty : Spells ("module" :: "m" :: declaringHeader []) (bytes "module m ();") :=
    .of_ordinary (by decide +kernel) (by decide)
  have hparse : parse ("module m ();" ++ depthTail) = .ok [depthModule] := by rfl
  have hlisted : ∀ g ∈ oneListed.getD [], g.Proper :=
    List.forall_mem_singleton.2 ⟨by decide, by decide, by decide, by decide⟩
  have hdeclared : ∀ g ∈ threeDeclared, g.Proper :=
    List.forall_mem_cons.2 ⟨⟨by decide, by decide, by decide, by decide⟩,
      List.forall_mem_singleton.2 ⟨by decide, by decide, by decide, by decide⟩⟩
  have hcompleted : ∀ p ∈ threeCompleted, p.Proper := by
    simp only [threeCompleted, List.forall_mem_cons]
    refine ⟨⟨?_, ?_, ?_, ?_⟩, ⟨?_, ?_, ?_, ?_⟩, ⟨?_, ?_⟩, ⟨?_, ?_⟩, ⟨?_, ?_⟩, ⟨?_, ?_⟩,
      ⟨?_, ?_, ?_, ?_⟩, by simp⟩
    all_goals decide +kernel
  exact ⟨hspells, hspells', hparse, header_styles (by decide) hlisted (by decide) hdeclared
    hcompleted rfl (by decide) rfl (by decide) (by decide) hspells hspells' hempty hparse⟩

end Source

end TaskLoom
