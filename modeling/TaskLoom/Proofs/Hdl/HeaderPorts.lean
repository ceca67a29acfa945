import TaskLoom.Proofs.Hdl.Fronts

/-!
# Port lists of headers

The ports of a module are declared in its header, or they are only named there and declared in its
body.  Either way the declarations come in groups, each with a direction, words for a type and a
range of its own (`PortGroup`).  In a header the direction and the range of a group stay with every
name up to the next group (`readsNames_groups`), and names without a direction are only noted
(`readsNames_bare`).  In a body a declaration completes the ports that it names, whatever has been
declared before (`declare?_declaredBy`, `body_group`).
-/

namespace TaskLoom

namespace Source

open Text (bytes)

/-- Some ports behind one direction. -/
structure PortGroup where
  direction : Direction
  types : List String := []
  range : Option BitRange := none
  first : String
  more : List String := []

/-- The words of some names. -/
def nameWords (names : List String) : List String := commaWords (names.map ([·]))

namespace PortGroup

def names (g : PortGroup) : List String := g.first :: g.more

def words (g : PortGroup) : List String :=
  g.direction.keyword :: (g.types ++ (rangeWords g.range ++ nameWords g.names))

/-- Each name is a port with the direction and the range of the group. -/
def ports (g : PortGroup) : List Port := g.names.map (⟨·, g.direction, g.range⟩)

/-- The direction is one of the three, the names are plain, and the bounds end where the range ends
them. -/
structure Proper (g : PortGroup) : Prop where
  direction : g.direction ≠ .unknown
  types : ∀ x ∈ g.types, x ∈ typeWords
  range : ∀ r ∈ g.range, closedRange r = true
  names : ∀ n ∈ g.names, isPlainName n = true

theorem Proper.plain {g : PortGroup} (h : g.Proper) {p : Port} (hp : p ∈ g.ports) :
    isPlainName p.name = true := by
  obtain ⟨n, hn, rfl⟩ := List.mem_map.1 hp
  exact h.names n hn

theorem names_ports (g : PortGroup) : g.ports.map Port.name = g.names := by
  rw [ports, List.map_map]
  exact List.map_id _

end PortGroup

theorem nameWords_first (a : String) (more : List String) (ws : List String) :
    ∃ ws', nameWords (a :: more) ++ ws = a :: ws' := commaWords_first a [] _ ws

theorem isTokenText_direction (d : Direction) : isTokenText d.keyword = true := by
  cases d <;> decide

section
variable {clean : List UInt8} {w : String} {ws : List String} {t : Token}
  {ts us rest : List Token} {ds : List PortDecl} {current : Option (Direction × Option BitRange)}
  {g : PortGroup} {gs : List PortGroup}

/-- The direction, the type and the range of a group. -/
theorem group_front (hg : g.Proper) (h : Spelled clean (g.words ++ ws) ts) :
    ∃ t ts₁ ts', ts = t :: ts₁ ∧ direction? t.text = some g.direction ∧
      Spelled clean (nameWords g.names ++ ws) ts' ∧ ts'.length ≤ ts₁.length ∧
      ∀ rest, typeAndRange clean (ts₁ ++ rest) = .ok (g.range, ts' ++ rest) := by
  obtain ⟨ws', hws'⟩ : ∃ ws', nameWords g.names ++ ws = g.first :: ws' :=
    nameWords_first g.first g.more ws
  rw [PortGroup.words, List.cons_append, List.append_assoc, List.append_assoc, hws'] at h
  obtain ⟨t, ts₁, rfl, ht, h₁⟩ := h.fixed (isTokenText_direction g.direction)
  obtain ⟨ts', h', hle, hread⟩ :=
    typeAndRange_spelled hg.types hg.range (hg.names g.first List.mem_cons_self) h₁
  exact ⟨t, ts₁, ts', rfl, by rw [ht, direction?_keyword hg.direction], hws' ▸ h', hle, hread⟩

/-! ### Headers -/

/-- The names of a header are read from the tokens, with enough fuel. -/
def ReadsNames (clean : List UInt8) (current : Option (Direction × Option BitRange))
    (ts : List Token) (ds : List PortDecl) (rest : List Token) : Prop :=
  ∀ fuel, ts.length < fuel → portNames clean fuel current ts = .ok (ds, rest)

theorem readsNames_close (ht : t.text = ")") : ReadsNames clean current (t :: ts) [] ts := by
  intro fuel hfuel
  obtain ⟨fuel, rfl⟩ : ∃ k, fuel = k + 1 := ⟨fuel - 1, by omega⟩
  simp [portNames, ht]

theorem readsNames_comma (ht : t.text = ",") (h : ReadsNames clean current ts ds rest) :
    ReadsNames clean current (t :: ts) ds rest := by
  intro fuel hfuel
  rw [List.length_cons] at hfuel
  obtain ⟨fuel, rfl⟩ : ∃ k, fuel = k + 1 := ⟨fuel - 1, by omega⟩
  have hrest := h fuel (by omega)
  simpa [portNames, ht] using hrest

theorem readsNames_name {name : String} (hname : isPlainName name = true) (ht : t.text = name)
    (hisName : t.isName = true) (h : ReadsNames clean current ts ds rest) :
    ReadsNames clean current (t :: ts) (⟨name, current⟩ :: ds) rest := by
  intro fuel hfuel
  rw [List.length_cons] at hfuel
  obtain ⟨fuel, rfl⟩ : ∃ k, fuel = k + 1 := ⟨fuel - 1, by omega⟩
  have hplain := isNameText_plain hname
  have hclose : (name == ")") = false := name_ne hplain (by decide)
  have hcomma : (name == ",") = false := name_ne hplain (by decide)
  simp only [portNames, ht, hclose, hcomma, Bool.false_eq_true, if_false, direction?_name hplain,
    hisName, if_true, h fuel (by omega)]
  rfl

/-- A direction holds for the names behind it, whatever held before. -/
theorem readsNames_direction {d : Direction} {r : Option BitRange} (hd : direction? t.text = some d)
    (hrange : typeAndRange clean ts = .ok (r, us)) (hle : us.length ≤ ts.length)
    (h : ReadsNames clean (some (d, r)) us ds rest) :
    ReadsNames clean current (t :: ts) ds rest := by
  intro fuel hfuel
  rw [List.length_cons] at hfuel
  obtain ⟨fuel, rfl⟩ : ∃ k, fuel = k + 1 := ⟨fuel - 1, by omega⟩
  have hne (w : String) (hw : direction? w = none) : (t.text == w) = false := by
    refine beq_eq_false_iff_ne.2 fun he => ?_
    rw [he, hw] at hd
    cases hd
  simp only [portNames, hne ")" (by decide), hne "," (by decide), Bool.false_eq_true, if_false, hd,
    hrange, bind, Except.bind, h fuel (by omega)]

/-- The names of a list all get the direction and the range that hold there. -/
theorem readsNames_names {a : String} {more : List String}
    (hnames : ∀ n ∈ a :: more, isPlainName n = true)
    (h : Spelled clean (nameWords (a :: more) ++ ws) ts) :
    ∃ ts', Spelled clean ws ts' ∧ ∀ current q ds rest,
      ReadsNames clean current (ts' ++ q) ds rest →
        ReadsNames clean current (ts ++ q) ((a :: more).map (⟨·, current⟩) ++ ds) rest := by
  induction more generalizing a ts with
  | nil =>
    have hname := hnames a List.mem_cons_self
    have hwords : nameWords [a] ++ ws = a :: ws := by simp [nameWords]
    rw [hwords] at h
    obtain ⟨t, ts', rfl, ht, hisName, h'⟩ := h.name hname
    exact ⟨ts', h', fun current q ds rest hread => readsNames_name hname ht hisName hread⟩
  | cons b more ih =>
    obtain ⟨hname, hnames⟩ := List.forall_mem_cons.1 hnames
    have hwords : nameWords (a :: b :: more) ++ ws = a :: "," :: (nameWords (b :: more) ++ ws) := by
      simp [nameWords]
    rw [hwords] at h
    obtain ⟨t, ts₁, rfl, ht, hisName, h₁⟩ := h.name hname
    obtain ⟨comma, ts₂, rfl, hcomma, h₂⟩ := h₁.fixed (by decide)
    obtain ⟨ts', h', hread'⟩ := ih hnames h₂
    exact ⟨ts', h', fun current q ds rest hread => readsNames_name hname ht hisName
      (readsNames_comma hcomma (hread' current q ds rest hread))⟩

theorem readsNames_group (hg : g.Proper) (h : Spelled clean (g.words ++ ws) ts) :
    ∃ ts', Spelled clean ws ts' ∧ ∀ current q ds rest,
      ReadsNames clean (some (g.direction, g.range)) (ts' ++ q) ds rest →
        ReadsNames clean current (ts ++ q) (g.ports.map PortDecl.typed ++ ds) rest := by
  obtain ⟨t, ts₁, ts₂, rfl, hd, h₂, hle, hrange⟩ := group_front hg h
  obtain ⟨ts', h', hread'⟩ := readsNames_names hg.names h₂
  refine ⟨ts', h', fun current q ds rest hread => ?_⟩
  have hle' : (ts₂ ++ q).length ≤ (ts₁ ++ q).length := by
    rw [List.length_append, List.length_append]
    omega
  rw [PortGroup.ports, List.map_map]
  exact readsNames_direction hd (hrange q) hle' (hread' _ q ds rest hread)

/-- The groups of a header. -/
theorem readsNames_groups (hgs : ∀ g ∈ gs, g.Proper)
    (h : Spelled clean (commaWords (gs.map PortGroup.words) ++ ")" :: ws) ts) :
    ∃ ts', Spelled clean ws ts' ∧ ∀ current q, ReadsNames clean current (ts ++ q)
      ((gs.flatMap PortGroup.ports).map PortDecl.typed) (ts' ++ q) := by
  induction gs generalizing ts with
  | nil =>
    obtain ⟨t, ts', rfl, ht, h'⟩ := Spelled.fixed h (by decide)
    exact ⟨ts', h', fun current q => readsNames_close ht⟩
  | cons g gs ih =>
    obtain ⟨hg, hgs⟩ := List.forall_mem_cons.1 hgs
    cases gs with
    | nil =>
      rw [List.map_singleton, commaWords_singleton] at h
      obtain ⟨ts₁, h₁, hread₁⟩ := readsNames_group hg h
      obtain ⟨t, ts', rfl, ht, h'⟩ := h₁.fixed (by decide)
      refine ⟨ts', h', fun current q => ?_⟩
      have hall := hread₁ current q [] _ (readsNames_close ht)
      rwa [List.append_nil, ← List.flatMap_singleton PortGroup.ports g] at hall
    | cons g' gs =>
      rw [List.map_cons, List.map_cons, commaWords_cons_cons, List.append_assoc, List.cons_append,
        ← List.map_cons] at h
      obtain ⟨ts₁, h₁, hread₁⟩ := readsNames_group hg h
      obtain ⟨t, ts₂, rfl, ht, h₂⟩ := h₁.fixed (by decide)
      obtain ⟨ts', h', hread'⟩ := ih hgs h₂
      refine ⟨ts', h', fun current q => ?_⟩
      rw [List.flatMap_cons, List.map_append]
      exact hread₁ current q _ _ (readsNames_comma ht (hread' _ q))

/-- A list of names without directions. -/
theorem readsNames_bare {names : List String} (hnames : ∀ n ∈ names, isPlainName n = true)
    (h : Spelled clean (nameWords names ++ ")" :: ws) ts) :
    ∃ ts', Spelled clean ws ts' ∧ ∀ q, ReadsNames clean none (ts ++ q)
      (names.map (⟨·, none⟩)) (ts' ++ q) := by
  cases names with
  | nil =>
    obtain ⟨t, ts', rfl, ht, h'⟩ := Spelled.fixed h (by decide)
    exact ⟨ts', h', fun q => readsNames_close ht⟩
  | cons a more =>
    obtain ⟨ts₁, h₁, hread₁⟩ := readsNames_names hnames h
    obtain ⟨t, ts', rfl, ht, h'⟩ := h₁.fixed (by decide)
    refine ⟨ts', h', fun q => ?_⟩
    have hall := hread₁ none q [] _ (readsNames_close ht)
    rwa [List.append_nil] at hall

/-! ### Declarations in a body -/

/-- The ports of a header when the ports of some names have been declared. -/
def declaredBy (ps : List Port) (done : List String) : List PortDecl :=
  ps.map fun p => if p.name ∈ done then PortDecl.typed p else PortDecl.untyped p

theorem name_declaredBy {ps : List Port} {done : List String} {d : PortDecl}
    (hd : d ∈ declaredBy ps done) : ∃ p ∈ ps, d.name = p.name := by
  obtain ⟨p, hp, rfl⟩ := List.mem_map.1 hd
  refine ⟨p, hp, ?_⟩
  split <;> rfl

/-- A declaration completes its port, whatever has been declared before. -/
theorem declare?_declaredBy {ps : List Port} (hnodup : (ps.map Port.name).Nodup) {p : Port}
    (hp : p ∈ ps) (done : List String) :
    declare? p.name (p.direction, p.range) (declaredBy ps done) =
      some (declaredBy ps (p.name :: done)) := by
  induction ps with
  | nil => cases hp
  | cons q ps ih =>
    rw [List.map_cons, List.nodup_cons] at hnodup
    have hother (p : Port) (hp : p ∈ ps) : p.name ≠ q.name :=
      fun he => hnodup.1 (he ▸ List.mem_map_of_mem hp)
    simp only [declaredBy, List.map_cons, declare?]
    rcases List.mem_cons.1 hp with rfl | hp
    · have habsent : declare? p.name (p.direction, p.range) (declaredBy ps done) = none := by
        refine declare?_absent (fun d hd => ?_) _
        obtain ⟨p', hp', he⟩ := name_declaredBy hd
        exact he ▸ hother p' hp'
      have hrest : declaredBy ps (p.name :: done) = declaredBy ps done :=
        List.map_congr_left fun p' hp' => by simp [hother p' hp']
      rw [← declaredBy, ← declaredBy, habsent, hrest]
      by_cases hdone : p.name ∈ done
      · simp [hdone, PortDecl.typed]
      · simp [hdone, PortDecl.typed, PortDecl.untyped]
    · rw [← declaredBy, ← declaredBy, ih hnodup.2 hp]
      simp [(hother p hp).symm]

theorem declaredBy_nil (ps : List Port) :
    declaredBy ps [] = (ps.map Port.name).map (⟨·, none⟩) := by
  simp [declaredBy, PortDecl.untyped]

theorem declaredBy_all {ps : List Port} {done : List String} (h : ∀ p ∈ ps, p.name ∈ done) :
    declaredBy ps done = ps.map PortDecl.typed :=
  List.map_congr_left fun p hp => by simp [h p hp]

/-- The names behind a direction in a body. -/
theorem declaredNames_read (module : String) {ps : List Port}
    (hnodup : (ps.map Port.name).Nodup) {d : Direction} {r : Option BitRange} {a : String}
    {more : List String} (hports : ∀ n ∈ a :: more, ⟨n, d, r⟩ ∈ ps)
    (hnames : ∀ n ∈ a :: more, isPlainName n = true)
    (h : Spelled clean (nameWords (a :: more) ++ ";" :: ws) ts) :
    ∃ ts', Spelled clean (";" :: ws) ts' ∧ ts'.length < ts.length ∧ ∀ q done fuel,
      ts.length ≤ fuel → declaredNames module (d, r) fuel (declaredBy ps done) (ts ++ q) =
        .ok (declaredBy ps ((a :: more).reverse ++ done), ts' ++ q) := by
  induction more generalizing a ts with
  | nil =>
    have hdeclare := declare?_declaredBy hnodup (hports a List.mem_cons_self)
    have hwords : nameWords [a] ++ ";" :: ws = a :: ";" :: ws := by simp [nameWords]
    rw [hwords] at h
    obtain ⟨t, ts', rfl, ht, -, h'⟩ := h.name (hnames a List.mem_cons_self)
    refine ⟨ts', h', by simp, fun q done fuel hfuel => ?_⟩
    obtain ⟨fuel, rfl⟩ : ∃ k, fuel = k + 1 := ⟨fuel - 1, by simp at hfuel; omega⟩
    obtain ⟨semicolon, us, rfl, hsemicolon, -⟩ := h'.fixed (by decide)
    simp [declaredNames, ht, hdeclare, headText, hsemicolon]
  | cons b more ih =>
    obtain ⟨hport, hports⟩ := List.forall_mem_cons.1 hports
    obtain ⟨hname, hnames⟩ := List.forall_mem_cons.1 hnames
    have hdeclare := declare?_declaredBy hnodup hport
    have hwords : nameWords (a :: b :: more) ++ ";" :: ws =
        a :: "," :: (nameWords (b :: more) ++ ";" :: ws) := by
      simp [nameWords]
    rw [hwords] at h
    obtain ⟨t, ts₁, rfl, ht, -, h₁⟩ := h.name hname
    obtain ⟨comma, ts₂, rfl, hcomma, h₂⟩ := h₁.fixed (by decide)
    obtain ⟨ts', h', hlt, hread⟩ := ih hports hnames h₂
    refine ⟨ts', h', by simp only [List.length_cons]; omega, fun q done fuel hfuel => ?_⟩
    rw [List.length_cons, List.length_cons] at hfuel
    obtain ⟨fuel, rfl⟩ : ∃ k, fuel = k + 1 := ⟨fuel - 1, by omega⟩
    have hrest := hread q (a :: done) fuel (by omega)
    rw [List.reverse_cons, List.append_assoc, List.singleton_append]
    simpa [declaredNames, ht, hdeclare, headText, hcomma] using hrest

/-- One declaration in a body. -/
theorem body_group (module : String) {ps : List Port} (hnodup : (ps.map Port.name).Nodup)
    (hg : g.Proper) (hports : ∀ p ∈ g.ports, p ∈ ps)
    (h : Spelled clean (g.words ++ ";" :: ws) ts) :
    ∃ ts', Spelled clean ws ts' ∧ ts'.length < ts.length ∧ ∀ q done params fuel,
      body clean module (fuel + 1) (declaredBy ps done) params (ts ++ q) =
        body clean module fuel (declaredBy ps (g.names.reverse ++ done)) params (ts' ++ q) := by
  obtain ⟨t, ts₁, ts₂, rfl, hd, h₂, hle, hrange⟩ := group_front hg h
  obtain ⟨ts₃, h₃, hlt₃, hnames⟩ := declaredNames_read module hnodup
    (fun n hn => hports _ (List.mem_map_of_mem hn)) hg.names h₂
  obtain ⟨semicolon, ts', rfl, hsemicolon, h'⟩ := h₃.fixed (by decide)
  rw [List.length_cons] at hlt₃
  refine ⟨ts', h', by rw [List.length_cons]; omega, fun q done params fuel => ?_⟩
  have hend : (t.text == "endmodule") = false := by
    refine beq_eq_false_iff_ne.2 fun he => ?_
    rw [he] at hd
    cases hd
  have hexpect : expect ";" (semicolon :: ts' ++ q) = .ok ((), ts' ++ q) := by
    simp [expect, hsemicolon]
  have hle₂ : ts₂.length ≤ (ts₂ ++ q).length + 1 := by
    rw [List.length_append]
    omega
  have hitem : bodyItem clean module (declaredBy ps done) params (t :: (ts₁ ++ q)) =
      .ok ((declaredBy ps (g.names.reverse ++ done), params), ts' ++ q) :=
    bodyItem_ok.2 (.port hd (hrange q) (hnames q done _ hle₂) hexpect)
  rw [List.cons_append, body_cons, hend, hitem]
  rfl

end

end Source

end TaskLoom
