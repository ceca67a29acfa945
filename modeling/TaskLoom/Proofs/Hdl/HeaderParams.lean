import TaskLoom.Proofs.Hdl.Fronts

/-!
# Parameter lists of headers

The parameters of a header come in groups, each with a keyword, words for a type and a range of its
own (`ParamGroup`).  A reader of one group looks past every comma, since the next name may still
belong to the group, and it knows `parameter` as the keyword of the next group there, but not
`localparam`.  So it stops before the next group (`paramGroup_stops`) or takes its keyword for a
name (`paramGroup_local`), and the whole list is read exactly if no group but the first one is
local.

Main statement: `header_params`.
-/

namespace TaskLoom

namespace Source

open Text (bytes)

/-- Some parameters with their values behind one keyword. -/
structure ParamGroup where
  isLocal : Bool := false
  types : List String := []
  range : Option BitRange := none
  first : String × String
  more : List (String × String) := []

/-- The words of some names with their values. -/
def assignedWords (assigned : List (String × String)) : List String :=
  commaWords (assigned.map fun a => [a.1, "=", a.2])

namespace ParamGroup

def assigned (g : ParamGroup) : List (String × String) := g.first :: g.more

def words (g : ParamGroup) : List String :=
  paramKeyword g.isLocal :: (g.types ++ (rangeWords g.range ++ assignedWords g.assigned))

/-- Each name is a parameter with its own value and with the range and the keyword of the group. -/
def params (g : ParamGroup) : List Param :=
  g.assigned.map fun a => ⟨a.1, a.2, g.range, g.isLocal⟩

/-- The names are plain, and values and bounds end where the list ends them. -/
structure Proper (g : ParamGroup) : Prop where
  types : ∀ x ∈ g.types, x ∈ typeWords
  range : ∀ r ∈ g.range, closedRange r = true
  names : ∀ a ∈ g.assigned, isPlainName a.1 = true
  values : ∀ a ∈ g.assigned, closedValue 0 (Source.words a.2) = true

theorem Proper.plain {g : ParamGroup} (h : g.Proper) {p : Param} (hp : p ∈ g.params) :
    isPlainName p.name = true := by
  obtain ⟨a, ha, rfl⟩ := List.mem_map.1 hp
  exact h.names a ha

end ParamGroup

/-! ### Reading one group -/

section
variable {clean : List UInt8} {name value w : String} {ws : List String} {ts : List Token}
  {g : ParamGroup}

/-- One name with its value: the list ends behind it or goes on. -/
theorem assignments_cons (header isLocal : Bool) (r : Option BitRange)
    (hname : isPlainName name = true) (hvalue : closedValue 0 (words value) = true)
    (h : Spelled clean (name :: "=" :: value :: ws) ts) :
    ∃ ts', Spelled clean ws ts' ∧ ts'.length + 2 ≤ ts.length ∧
      ∀ rest fuel, endsValue (headText (ts' ++ rest)) = true →
        assignments clean header isLocal r (fuel + 1) (ts ++ rest) =
          if headText (ts' ++ rest) != "," ||
              (header && headText ((ts' ++ rest).drop 1) == "parameter") then
            .ok ([⟨name, value, r, isLocal⟩], ts' ++ rest)
          else assignments clean header isLocal r fuel ((ts' ++ rest).drop 1) >>= fun a =>
            .ok (⟨name, value, r, isLocal⟩ :: a.1, a.2) := by
  obtain ⟨t, ts₁, rfl, ht, hisName, h₁⟩ := h.name hname
  obtain ⟨equals, ts₂, rfl, hequals, h₂⟩ := h₁.fixed (by decide)
  obtain ⟨us, ts', rfl, hus, hspan, h'⟩ := h₂.piece
  refine ⟨ts', h', by simp, fun rest fuel hends => ?_⟩
  have hvalue' := takeValue_closed (by rwa [hus]) (ts' ++ rest) hends
  simp only [List.cons_append, List.append_assoc, assignments, hisName, Bool.not_true,
    Bool.false_eq_true, if_false, expect, hequals, beq_self_eq_true, if_true, bind, Except.bind,
    hvalue', ht, hspan]
  rfl

/-- What ends a group of parameters: a closing bracket or a semicolon, or in a header a comma in
front of the keyword `parameter`. -/
def EndsGroup (header : Bool) (w : String) (ws : List String) : Prop :=
  (w = ")" ∨ w = ";") ∨ w = "," ∧ header = true ∧ ∃ ws', ws = "parameter" :: ws'

/-- The last name of a group. -/
theorem assignments_last (header isLocal : Bool) (r : Option BitRange)
    (hname : isPlainName name = true) (hvalue : closedValue 0 (words value) = true)
    (hw : EndsGroup header w ws) (h : Spelled clean (name :: "=" :: value :: w :: ws) ts) :
    ∃ ts', Spelled clean (w :: ws) ts' ∧ ts'.length < ts.length ∧
      ∀ rest fuel, assignments clean header isLocal r (fuel + 1) (ts ++ rest) =
        .ok ([⟨name, value, r, isLocal⟩], ts' ++ rest) := by
  obtain ⟨ts', h', hle, hread⟩ := assignments_cons header isLocal r hname hvalue h
  refine ⟨ts', h', by omega, fun rest fuel => ?_⟩
  rcases hw with hw | ⟨rfl, rfl, ws', rfl⟩
  · have hword : isTokenText w = true ∧ endsValue w = true ∧ (w != ",") = true := by
      rcases hw with rfl | rfl <;> decide
    obtain ⟨t, us, rfl, ht, -⟩ := h'.fixed hword.1
    have hhead : headText (t :: us ++ rest) = w := ht
    rw [hread rest fuel (hhead ▸ hword.2.1), hhead, hword.2.2]
    rfl
  · obtain ⟨t, us, rfl, ht, h₁⟩ := h'.fixed (by decide)
    obtain ⟨u, vs, rfl, hu, -⟩ := h₁.fixed (by decide)
    have hends : endsValue (headText (t :: u :: vs ++ rest)) = true := by
      rw [List.cons_append, headText, ht]
      decide
    rw [hread rest fuel hends]
    simp [headText, ht, hu]

/-- A name of a group, behind which the list goes on: whatever stands there is taken for the next
name, unless it is the keyword `parameter`. -/
theorem assignments_more (header isLocal : Bool) (r : Option BitRange)
    (hname : isPlainName name = true) (hvalue : closedValue 0 (words value) = true)
    (hw : isTokenText w = true) (hnext : w ≠ "parameter")
    (h : Spelled clean (name :: "=" :: value :: "," :: w :: ws) ts) :
    ∃ ts', Spelled clean (w :: ws) ts' ∧ ts'.length < ts.length ∧
      ∀ rest fuel, assignments clean header isLocal r (fuel + 1) (ts ++ rest) =
        assignments clean header isLocal r fuel (ts' ++ rest) >>= fun a =>
          .ok (⟨name, value, r, isLocal⟩ :: a.1, a.2) := by
  obtain ⟨ts', h', hle, hread⟩ := assignments_cons header isLocal r hname hvalue h
  obtain ⟨t, us, rfl, ht, h₁⟩ := h'.fixed (by decide)
  obtain ⟨u, vs, rfl, hu, -⟩ := h₁.fixed hw
  refine ⟨u :: vs, h₁, by simp at hle ⊢; omega, fun rest fuel => ?_⟩
  have hends : endsValue (headText (t :: u :: vs ++ rest)) = true := by
    rw [List.cons_append, headText, ht]
    decide
  rw [hread rest fuel hends]
  simp [headText, ht, hu, hnext]

theorem assignedWords_single (a : String × String) (ws : List String) :
    assignedWords [a] ++ ws = a.1 :: "=" :: a.2 :: ws := by
  simp [assignedWords]

theorem assignedWords_first (a : String × String) (more : List (String × String))
    (ws : List String) : ∃ ws', assignedWords (a :: more) ++ ws = a.1 :: ws' :=
  commaWords_first a.1 ["=", a.2] _ ws

theorem assignedWords_more (a b : String × String) (more : List (String × String))
    (ws : List String) : assignedWords (a :: b :: more) ++ ws =
      a.1 :: "=" :: a.2 :: "," :: (assignedWords (b :: more) ++ ws) := by
  simp [assignedWords]

theorem ne_parameter (hname : isPlainName name = true) : name ≠ "parameter" := by
  rintro rfl
  exact absurd hname (by decide)

/-- The names of a group up to what ends it. -/
theorem assignments_stops (header isLocal : Bool) (r : Option BitRange) {a : String × String}
    {more : List (String × String)} (hnames : ∀ x ∈ a :: more, isPlainName x.1 = true)
    (hvalues : ∀ x ∈ a :: more, closedValue 0 (words x.2) = true) (hw : EndsGroup header w ws)
    (h : Spelled clean (assignedWords (a :: more) ++ w :: ws) ts) :
    ∃ ts', Spelled clean (w :: ws) ts' ∧ ts'.length < ts.length ∧
      ∀ rest fuel, ts.length ≤ fuel → assignments clean header isLocal r fuel (ts ++ rest) =
        .ok ((a :: more).map fun x => ⟨x.1, x.2, r, isLocal⟩, ts' ++ rest) := by
  induction more generalizing a ts with
  | nil =>
    rw [assignedWords_single] at h
    obtain ⟨ts', h', hlt, hread⟩ := assignments_last header isLocal r
      (hnames a List.mem_cons_self) (hvalues a List.mem_cons_self) hw h
    refine ⟨ts', h', hlt, fun rest fuel hfuel => ?_⟩
    obtain ⟨fuel, rfl⟩ : ∃ k, fuel = k + 1 := ⟨fuel - 1, by omega⟩
    exact hread rest fuel
  | cons b more ih =>
    obtain ⟨hnamea, hnames⟩ := List.forall_mem_cons.1 hnames
    obtain ⟨hvaluea, hvalues⟩ := List.forall_mem_cons.1 hvalues
    have hnameb := hnames b List.mem_cons_self
    obtain ⟨ws', hwords⟩ := assignedWords_first b more (w :: ws)
    rw [assignedWords_more, hwords] at h
    obtain ⟨ts₁, h₁, hlt₁, hread₁⟩ := assignments_more header isLocal r hnamea hvaluea
      (isTokenText_name hnameb) (ne_parameter hnameb) h
    rw [← hwords] at h₁
    obtain ⟨ts', h', hlt, hread⟩ := ih hnames hvalues h₁
    refine ⟨ts', h', by omega, fun rest fuel hfuel => ?_⟩
    obtain ⟨fuel, rfl⟩ : ∃ k, fuel = k + 1 := ⟨fuel - 1, by omega⟩
    rw [hread₁, hread rest fuel (by omega)]
    rfl

/-- The names of a group up to the keyword `localparam`, which is no name. -/
theorem assignments_local (isLocal : Bool) (r : Option BitRange) {a : String × String}
    {more : List (String × String)} (hnames : ∀ x ∈ a :: more, isPlainName x.1 = true)
    (hvalues : ∀ x ∈ a :: more, closedValue 0 (words x.2) = true)
    (h : Spelled clean (assignedWords (a :: more) ++ "," :: "localparam" :: ws) ts)
    (rest : List Token) {fuel : Nat} (hfuel : ts.length ≤ fuel) :
    ∃ us, assignments clean true isLocal r fuel (ts ++ rest) =
      .error ⟨.paramName (bytes "localparam"), us⟩ := by
  induction more generalizing a ts fuel with
  | nil =>
    rw [assignedWords_single] at h
    obtain ⟨ts', h', hlt, hread⟩ := assignments_more true isLocal r (hnames a List.mem_cons_self)
      (hvalues a List.mem_cons_self) (by decide) (by decide) h
    obtain ⟨t, us, rfl, ht, -⟩ := h'.token (by decide)
    have hname : t.isName = false := by
      rw [isName_of_bytes ht]
      decide
    rw [List.length_cons] at hlt
    obtain ⟨fuel, rfl⟩ : ∃ k, fuel = k + 1 + 1 := ⟨fuel - 2, by omega⟩
    refine ⟨us ++ rest, ?_⟩
    rw [hread, List.cons_append, assignments, hname, ht]
    rfl
  | cons b more ih =>
    obtain ⟨hnamea, hnames⟩ := List.forall_mem_cons.1 hnames
    obtain ⟨hvaluea, hvalues⟩ := List.forall_mem_cons.1 hvalues
    have hnameb := hnames b List.mem_cons_self
    obtain ⟨ws', hwords⟩ := assignedWords_first b more ("," :: "localparam" :: ws)
    rw [assignedWords_more, hwords] at h
    obtain ⟨ts₁, h₁, hlt₁, hread₁⟩ := assignments_more true isLocal r hnamea hvaluea
      (isTokenText_name hnameb) (ne_parameter hnameb) h
    rw [← hwords] at h₁
    obtain ⟨fuel, rfl⟩ : ∃ k, fuel = k + 1 := ⟨fuel - 1, by omega⟩
    have hfuel₁ : ts₁.length ≤ fuel := by omega
    obtain ⟨us, hread⟩ := ih hnames hvalues h₁ hfuel₁
    refine ⟨us, ?_⟩
    rw [hread₁, hread]
    rfl

/-- The keyword, the type and the range of a group. -/
theorem paramGroup_front (header : Bool) (hg : g.Proper) (h : Spelled clean (g.words ++ ws) ts) :
    ∃ ts', Spelled clean (assignedWords g.assigned ++ ws) ts' ∧ ts'.length < ts.length ∧
      ∀ rest, paramGroup clean header (ts ++ rest) =
        assignments clean header g.isLocal g.range ((ts' ++ rest).length + 1) (ts' ++ rest) := by
  have hkeyword : isTokenText (paramKeyword g.isLocal) = true ∧
      (paramKeyword g.isLocal == "parameter" || paramKeyword g.isLocal == "localparam") = true ∧
      (paramKeyword g.isLocal == "localparam") = g.isLocal := by
    cases g.isLocal <;> decide
  obtain ⟨ws', hws'⟩ : ∃ ws', assignedWords g.assigned ++ ws = g.first.1 :: ws' :=
    assignedWords_first g.first g.more ws
  rw [ParamGroup.words, List.cons_append, List.append_assoc, List.append_assoc, hws'] at h
  obtain ⟨t, ts₁, rfl, ht, h₁⟩ := h.fixed hkeyword.1
  obtain ⟨ts', h', hle, hread⟩ :=
    typeAndRange_spelled hg.types hg.range (hg.names g.first List.mem_cons_self) h₁
  refine ⟨ts', hws' ▸ h', Nat.lt_succ_of_le hle, fun rest => ?_⟩
  rw [List.cons_append, paramGroup]
  simp only [headText, ht, hkeyword.2.1, if_true, List.drop_succ_cons, List.drop_zero, hread rest]
  simp only [bind, Except.bind, hkeyword.2.2]

/-- A group up to what ends it. -/
theorem paramGroup_stops (header : Bool) (hg : g.Proper) (hw : EndsGroup header w ws)
    (h : Spelled clean (g.words ++ w :: ws) ts) :
    ∃ ts', Spelled clean (w :: ws) ts' ∧ ts'.length < ts.length ∧
      ∀ rest, paramGroup clean header (ts ++ rest) = .ok (g.params, ts' ++ rest) := by
  obtain ⟨ts₁, h₁, hlt₁, hread₁⟩ := paramGroup_front header hg h
  obtain ⟨ts', h', hlt, hread⟩ :=
    assignments_stops header g.isLocal g.range hg.names hg.values hw h₁
  refine ⟨ts', h', by omega, fun rest => ?_⟩
  rw [hread₁ rest, hread rest _ (by rw [List.length_append]; omega)]
  rfl

/-- A group before a group of local parameters is not read. -/
theorem paramGroup_local (hg : g.Proper)
    (h : Spelled clean (g.words ++ "," :: "localparam" :: ws) ts) (rest : List Token) :
    ∃ us, paramGroup clean true (ts ++ rest) =
      .error ⟨.paramName (bytes "localparam"), us⟩ := by
  obtain ⟨ts₁, h₁, hlt₁, hread₁⟩ := paramGroup_front true hg h
  rw [hread₁ rest]
  exact assignments_local _ _ hg.names hg.values h₁ rest (by rw [List.length_append]; omega)

end

/-! ### Reading the list -/

section
variable {clean : List UInt8} {ws : List String} {t : Token} {ts : List Token} {fuel : Nat}
  {gs : List ParamGroup}

theorem headerParams_close (ht : t.text = ")") :
    headerParams clean (fuel + 1) (t :: ts) = .ok ([], t :: ts) := by
  simp [headerParams, headText, ht]

theorem headerParams_comma (ht : t.text = ",") :
    headerParams clean (fuel + 1) (t :: ts) = headerParams clean fuel ts := by
  simp [headerParams, headText, ht]

theorem headerParams_keyword {isLocal : Bool} (ht : t.text = paramKeyword isLocal) :
    headerParams clean (fuel + 1) (t :: ts) = paramGroup clean true (t :: ts) >>= fun a =>
      headerParams clean fuel a.2 >>= fun b => .ok (a.1 ++ b.1, b.2) := by
  have hclose : (paramKeyword isLocal == ")") = false ∧ (paramKeyword isLocal == ",") = false := by
    cases isLocal <;> decide
  simp only [headerParams, headText, ht, hclose, Bool.false_or, List.isEmpty_cons,
    Bool.false_eq_true, if_false]
  rfl

/-- The keyword of a group is its first word. -/
theorem headerParams_group {g : ParamGroup} (h : Spelled clean (g.words ++ ws) ts)
    (rest : List Token) : headerParams clean (fuel + 1) (ts ++ rest) =
      paramGroup clean true (ts ++ rest) >>= fun a =>
        headerParams clean fuel a.2 >>= fun b => .ok (a.1 ++ b.1, b.2) := by
  have hkeyword : isTokenText (paramKeyword g.isLocal) = true := by
    cases g.isLocal <;> decide
  obtain ⟨t, ts', rfl, ht, -⟩ := Spelled.fixed h hkeyword
  exact headerParams_keyword ht

/-- The first word of a list of groups. -/
theorem groupWords_first (g : ParamGroup) (gs : List ParamGroup) (ws : List String) :
    ∃ ws', commaWords ((g :: gs).map ParamGroup.words) ++ ws = paramKeyword g.isLocal :: ws' :=
  commaWords_first _ _ _ ws

/-- A list without local groups behind the first group. -/
theorem headerParams_read (hgs : ∀ g ∈ gs, g.Proper) (hshared : ∀ g ∈ gs.tail, g.isLocal = false)
    (h : Spelled clean (commaWords (gs.map ParamGroup.words) ++ ")" :: ws) ts) :
    ∃ ts', Spelled clean (")" :: ws) ts' ∧ ∀ rest fuel, ts.length < fuel →
      headerParams clean fuel (ts ++ rest) = .ok (gs.flatMap ParamGroup.params, ts' ++ rest) := by
  induction gs generalizing ts with
  | nil =>
    refine ⟨ts, h, fun rest fuel hfuel => ?_⟩
    obtain ⟨fuel, rfl⟩ : ∃ k, fuel = k + 1 := ⟨fuel - 1, by omega⟩
    obtain ⟨t, us, rfl, ht, -⟩ := Spelled.fixed h (by decide)
    exact headerParams_close ht
  | cons g gs ih =>
    obtain ⟨hg, hgs⟩ := List.forall_mem_cons.1 hgs
    cases gs with
    | nil =>
      rw [List.map_singleton, commaWords_singleton] at h
      obtain ⟨ts', h', hlt, hread⟩ := paramGroup_stops true hg (.inl (.inl rfl)) h
      refine ⟨ts', h', fun rest fuel hfuel => ?_⟩
      obtain ⟨fuel, rfl⟩ : ∃ k, fuel = k + 1 + 1 := ⟨fuel - 2, by omega⟩
      obtain ⟨t, us, rfl, ht, -⟩ := h'.fixed (by decide)
      rw [headerParams_group h, hread rest]
      simp only [bind, Except.bind, List.cons_append, headerParams_close ht]
      simp
    | cons g' gs =>
      rw [List.tail_cons] at hshared
      obtain ⟨hg', hshared'⟩ := List.forall_mem_cons.1 hshared
      rw [List.map_cons, List.map_cons, commaWords_cons_cons, List.append_assoc, List.cons_append,
        ← List.map_cons] at h
      have hnext := groupWords_first g' gs (")" :: ws)
      rw [hg'] at hnext
      obtain ⟨ts₁, h₁, hlt₁, hread₁⟩ := paramGroup_stops true hg (.inr ⟨rfl, rfl, hnext⟩) h
      obtain ⟨t, ts₂, rfl, ht, h₂⟩ := h₁.fixed (by decide)
      obtain ⟨ts', h', hread⟩ := ih hgs hshared' h₂
      refine ⟨ts', h', fun rest fuel hfuel => ?_⟩
      rw [List.length_cons] at hlt₁
      obtain ⟨fuel, rfl⟩ : ∃ k, fuel = k + 1 + 1 := ⟨fuel - 2, by omega⟩
      rw [headerParams_group h, hread₁ rest]
      simp only [bind, Except.bind, List.cons_append, headerParams_comma ht,
        hread rest fuel (by omega)]
      simp

/-- A list with a local group behind the first group. -/
theorem headerParams_local (hgs : ∀ g ∈ gs, g.Proper) (hlocal : ∃ g ∈ gs.tail, g.isLocal = true)
    (h : Spelled clean (commaWords (gs.map ParamGroup.words) ++ ")" :: ws) ts) (rest : List Token)
    (hfuel : ts.length < fuel) : ∃ us, headerParams clean fuel (ts ++ rest) =
      .error ⟨.paramName (bytes "localparam"), us⟩ := by
  induction gs generalizing ts fuel with
  | nil =>
    obtain ⟨g, hg, -⟩ := hlocal
    cases hg
  | cons g gs ih =>
    obtain ⟨hg, hgs⟩ := List.forall_mem_cons.1 hgs
    cases gs with
    | nil =>
      obtain ⟨g, hg, -⟩ := hlocal
      cases hg
    | cons g' gs =>
      rw [List.map_cons, List.map_cons, commaWords_cons_cons, List.append_assoc, List.cons_append,
        ← List.map_cons] at h
      have hnext := groupWords_first g' gs (")" :: ws)
      cases hg' : g'.isLocal with
      | true =>
        rw [hg'] at hnext
        obtain ⟨ws', hws'⟩ := hnext
        have hgroup := h
        rw [hws'] at hgroup
        obtain ⟨us, herror⟩ := paramGroup_local hg hgroup rest
        obtain ⟨fuel, rfl⟩ : ∃ k, fuel = k + 1 := ⟨fuel - 1, by omega⟩
        refine ⟨us, ?_⟩
        rw [headerParams_group h, herror]
        rfl
      | false =>
        rw [hg'] at hnext
        obtain ⟨ts₁, h₁, hlt₁, hread₁⟩ := paramGroup_stops true hg (.inr ⟨rfl, rfl, hnext⟩) h
        obtain ⟨t, ts₂, rfl, ht, h₂⟩ := h₁.fixed (by decide)
        rw [List.length_cons] at hlt₁
        obtain ⟨fuel, rfl⟩ : ∃ k, fuel = k + 1 + 1 := ⟨fuel - 2, by omega⟩
        have hlocal' : ∃ x ∈ (g' :: gs).tail, x.isLocal = true := by
          obtain ⟨x, hx, hxlocal⟩ := hlocal
          rcases List.mem_cons.1 hx with rfl | hx
          · rw [hg'] at hxlocal
            cases hxlocal
          · exact ⟨x, hx, hxlocal⟩
        have hfuel₂ : ts₂.length < fuel := by omega
        obtain ⟨us, herror⟩ := ih hgs hlocal' h₂ hfuel₂
        refine ⟨us, ?_⟩
        rw [headerParams_group h, hread₁ rest]
        simp only [bind, Except.bind, List.cons_append, headerParams_comma ht, herror]

/-- The words of a parameter list. -/
def paramListWords (gs : List ParamGroup) : List String :=
  "#" :: "(" :: (commaWords (gs.map ParamGroup.words) ++ [")"])

theorem paramList_front (h : Spelled clean (paramListWords gs) ts) :
    ∃ ts', Spelled clean (commaWords (gs.map ParamGroup.words) ++ [")"]) ts' ∧
      ∀ rest, paramList clean (ts ++ rest) =
        headerParams clean ((ts' ++ rest).length + 1) (ts' ++ rest) >>= fun a =>
          expect ")" a.2 >>= fun b => .ok (a.1, b.2) := by
  obtain ⟨mark, ts₁, rfl, hmark, h₁⟩ := h.fixed (by decide)
  obtain ⟨opening, ts', rfl, hopening, h'⟩ := h₁.fixed (by decide)
  refine ⟨ts', h', fun rest => ?_⟩
  simp only [List.cons_append, paramList, headText, hmark, List.drop_succ_cons, List.drop_zero,
    expect, hopening, beq_self_eq_true, if_true, bne_self_eq_false, Bool.false_eq_true, if_false]
  rfl

theorem paramList_read (hgs : ∀ g ∈ gs, g.Proper) (hshared : ∀ g ∈ gs.tail, g.isLocal = false)
    (h : Spelled clean (paramListWords gs) ts) (rest : List Token) :
    paramList clean (ts ++ rest) = .ok (gs.flatMap ParamGroup.params, rest) := by
  obtain ⟨ts₁, h₁, hread₁⟩ := paramList_front h
  obtain ⟨ts', h', hread⟩ := headerParams_read hgs hshared h₁
  obtain ⟨t, us, rfl, ht, hnil⟩ := h'.fixed (by decide)
  cases hnil
  rw [hread₁ rest, hread rest _ (by rw [List.length_append]; omega)]
  simp [bind, Except.bind, expect, ht]

theorem paramList_local (hgs : ∀ g ∈ gs, g.Proper) (hlocal : ∃ g ∈ gs.tail, g.isLocal = true)
    (h : Spelled clean (paramListWords gs) ts) (rest : List Token) :
    ∃ us, paramList clean (ts ++ rest) = .error ⟨.paramName (bytes "localparam"), us⟩ := by
  obtain ⟨ts₁, h₁, hread₁⟩ := paramList_front h
  have hfuel : ts₁.length < (ts₁ ++ rest).length + 1 := by
    rw [List.length_append]
    omega
  obtain ⟨us, herror⟩ := headerParams_local hgs hlocal h₁ rest hfuel
  refine ⟨us, ?_⟩
  rw [hread₁ rest, herror]
  rfl

end

section
variable {name front front₀ tail : String} {gs : List ParamGroup} {m : Module} {ms : List Module}

theorem parse_local (hname : isPlainName name = true) (hgs : ∀ g ∈ gs, g.Proper)
    (hlocal : ∃ g ∈ gs.tail, g.isLocal = true)
    (h : Spells ("module" :: name :: paramListWords gs) (bytes front)) (tail : String) :
    ∃ line, parse (front ++ tail) =
      .error (.at line (.paramName (bytes "localparam"))) := by
  obtain ⟨l, t, ts, fuel, -, hbegins, hspelled, -, hparse⟩ := h.parse tail
  obtain ⟨u, us, rfl, hu, hisName, hspelled'⟩ := hspelled.name hname
  obtain ⟨vs, herror⟩ :=
    paramList_local hgs hlocal hspelled' (tokensFrom l.length 0 (tailBytes tail))
  have hword : (t.text == "module" || t.text == "macromodule") = true := hbegins
  refine ⟨lineOf (l ++ tailBytes tail) vs, ?_⟩
  rw [hparse, modulesFrom, if_pos hword, List.cons_append, moduleParts, hisName]
  simp only [bind, Except.bind, herror]
  rfl

theorem parse_shared (hname : isPlainName name = true) (hgs : ∀ g ∈ gs, g.Proper)
    (hnodup : ((gs.flatMap ParamGroup.params).map Param.name).Nodup)
    (hnew : ∀ p ∈ gs.flatMap ParamGroup.params, p.name ∉ m.names)
    (hshared : ∀ g ∈ gs.tail, g.isLocal = false)
    (h : Spells ("module" :: name :: paramListWords gs) (bytes front))
    (h₀ : Spells ("module" :: name :: paramListWords []) (bytes front₀))
    (hparse : parse (front₀ ++ tail) = .ok (m :: ms)) :
    ∃ verbatim, parse (front ++ tail) =
      .ok (.ofInterface m.name verbatim m.ports (gs.flatMap ParamGroup.params ++ m.params) ::
        ms) := by
  -- behind the parameters the two sources have the same tail
  have hparts := parse_front (P := fun b b' => b'.ports = b.ports ∧
    b'.params = gs.flatMap ParamGroup.params ++ b.params) h₀ h hparse ?_
  · obtain ⟨name', v, v', b, b', ⟨hports, hparams⟩, hm, hall⟩ := hparts
    obtain ⟨ps, hps, rfl, honce⟩ := toModule_ok_iff.1 hm
    refine ⟨v', hall _ (toModule_ok_iff.2 ⟨ps, hports.trans hps, by rw [hparams]; rfl, ?_⟩)⟩
    refine declaresOnce_extend ((gs.flatMap ParamGroup.params).map Param.name) honce ?_ ?_ ?_ hnodup
    · simp only [Module.names_ofInterface, List.map_append]
      rw [← List.append_assoc, ← List.append_assoc]
      exact List.perm_append_comm.append_right _
    · rintro n hn
      obtain ⟨p, hp, rfl⟩ := List.mem_map.1 hn
      obtain ⟨g, hg, hp⟩ := List.mem_flatMap.1 hp
      exact (hgs g hg).plain hp
    · rintro n hn
      obtain ⟨p, hp, rfl⟩ := List.mem_map.1 hn
      exact hnew p hp
  · intro l₀ l ts₀ ts name' b rest hspelled₀ hspelled hmodule
    obtain ⟨t₀, us₀, rfl, ht₀, -, hspelled₀⟩ := hspelled₀.name hname
    obtain ⟨t, us, rfl, ht, hisName, hspelled⟩ := hspelled.name hname
    rw [List.cons_append] at hmodule ⊢
    obtain ⟨-, rfl, params, vs, hlist, hrest⟩ := moduleParts_ok.1 hmodule
    rw [paramList_read (by simp) (by simp) hspelled₀] at hlist
    obtain ⟨rfl, rfl⟩ := Prod.mk.inj (Except.ok.inj hlist)
    obtain ⟨stop, hread, hsub⟩ := portsAndBody_tail
      (portsAndBody_params hrest (gs.flatMap ParamGroup.params)) l
    rw [ht₀, ← ht] at hread ⊢
    exact ⟨hsub, ⟨b.ports, gs.flatMap ParamGroup.params ++ b.params, stop⟩, ⟨rfl, rfl⟩,
      moduleParts_ok.2 ⟨hisName, rfl, _, _, paramList_read hgs hshared hspelled _, hread⟩⟩

/-- A module with a parameter list in its header has exactly these parameters in front of its
others, if the keyword of every group but the first one is `parameter`.  Otherwise the source is
refused: the keyword `localparam` is taken for the name of a parameter.

The module is compared with the one whose parameter list is empty; both have the same tail, which
may be anything. -/
theorem header_params (hname : isPlainName name = true) (hgs : ∀ g ∈ gs, g.Proper)
    (hnodup : ((gs.flatMap ParamGroup.params).map Param.name).Nodup)
    (hnew : ∀ p ∈ gs.flatMap ParamGroup.params, p.name ∉ m.names)
    (h : Spells ("module" :: name :: paramListWords gs) (bytes front))
    (h₀ : Spells ("module" :: name :: paramListWords []) (bytes front₀))
    (hparse : parse (front₀ ++ tail) = .ok (m :: ms)) :
    ((∀ g ∈ gs.tail, g.isLocal = false) → ∃ verbatim, parse (front ++ tail) =
      .ok (.ofInterface m.name verbatim m.ports (gs.flatMap ParamGroup.params ++ m.params) ::
        ms)) ∧
    ((∃ g ∈ gs.tail, g.isLocal = true) → ∃ line, parse (front ++ tail) =
      .error (.at line (.paramName (bytes "localparam")))) :=
  ⟨fun hshared => parse_shared hname hgs hnodup hnew hshared h h₀ hparse,
    fun hlocal => parse_local hname hgs hlocal h tail⟩

end

/-- Two groups of parameters; the first one has a type, a range and values with commas. -/
def twoGroups : List ParamGroup :=
  [{ types := ["integer"], range := some ⟨"3", "0"⟩, first := ("A", "f(1, 2)"),
     more := [("B", "\x7bA, 3\x7d")] },
   { first := ("C", "A == B") }]

/-- The two groups in a header, with a comment in between. -/
def twoGroupsHeader : String :=
  "module m #(parameter integer [3:0] A = f(1, 2), B = \x7bA, 3\x7d, " ++
    "/* C */ parameter C = A == B)"

/-- What stands behind the header of a module with one port and one parameter. -/
def shortTail : String := " (input a);\n  parameter D = 4;\nendmodule\n"

def shortModule : Module :=
  .ofInterface "m" ("module m #()" ++ shortTail) [{ name := "a" }] [{ name := "D", value := "4" }]

/-- The two groups are read, in front of the parameter of the body. -/
theorem header_params_two_groups :
    Spells ("module" :: "m" :: paramListWords twoGroups) (bytes twoGroupsHeader) ∧
    parse ("module m #()" ++ shortTail) = .ok [shortModule] ∧
    ∃ verbatim, parse (twoGroupsHeader ++ shortTail) = .ok [.ofInterface "m" verbatim
      shortModule.ports [⟨"A", "f(1, 2)", some ⟨"3", "0"⟩, false⟩,
        ⟨"B", "\x7bA, 3\x7d", some ⟨"3", "0"⟩, false⟩, ⟨"C", "A == B", none, false⟩,
        ⟨"D", "4", none, false⟩]] := by
  have hsplit : bytes twoGroupsHeader =
      bytes "module m #(parameter integer [3:0] A = f(1, 2), B = \x7bA, 3\x7d, " ++
        ((Filler.block (bytes " C ")).bytes ++ bytes " parameter C = A == B)") := by
    decide +kernel
  have hspells : Spells ("module" :: "m" :: paramListWords twoGroups) (bytes twoGroupsHeader) :=
    hsplit ▸ .of_filler (by decide) (by decide) (by decide) (by decide +kernel)
  have hempty : Spells ("module" :: "m" :: paramListWords []) (bytes "module m #()") :=
    .of_ordinary (by decide +kernel) (by decide)
  have hparse : parse ("module m #()" ++ shortTail) = .ok [shortModule] := by rfl
  have hproper : ∀ g ∈ twoGroups, g.Proper := by
    refine List.forall_mem_cons.2 ⟨?_, List.forall_mem_singleton.2 ?_⟩
    · exact ⟨by decide, by decide, by decide, by decide +kernel⟩
    · exact ⟨by decide, by decide, by decide, by decide +kernel⟩
  exact ⟨hspells, hparse, (header_params (by decide) hproper (by decide) (by decide) hspells hempty
    hparse).1 (by decide)⟩

/-- A header whose second group is local is refused. -/
theorem local_group_refused :
    Spells ("module" :: "m" :: paramListWords [{ first := ("A", "1") },
      { isLocal := true, first := ("B", "2") }])
        (bytes "module m #(parameter A = 1, localparam B = 2)") ∧
    parse ("module m #(parameter A = 1, localparam B = 2)" ++ shortTail) =
      .error (.at 1 (.paramName (bytes "localparam"))) :=
  ⟨.of_ordinary (by decide +kernel) (by decide), by rfl⟩

end Source

end TaskLoom
