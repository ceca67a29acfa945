import TaskLoom.Hdl.Module

/-!
# Growing a module item by item

A module that was grown from an empty one is determined by the list of its items: each region is
the list of the items of its kind, in order (`addAll_eq`, `signals_pushAll` and its companions),
and the declared names are pairwise different (`nodup_of_addAll`).
-/

namespace TaskLoom

namespace Item

def port? : Item → Option Port
  | .port p => some p
  | _ => none

def param? : Item → Option Param
  | .param p => some p
  | _ => none

def signal? : Item → Option Signal
  | .signal s => some s
  | _ => none

def cell? : Item → Option Cell
  | .cell c => some c
  | _ => none

def logic? : Item → Option Logic
  | .logic l => some l
  | _ => none

def name? (i : Item) : Option String := i.declares?.map Prod.snd

/-- The entry that an item makes in the table of names. -/
def entry? (i : Item) : Option (String × DeclKind) := i.declares?.map Prod.swap

end Item

def portsOf (items : List Item) : List Port := items.filterMap Item.port?

def paramsOf (items : List Item) : List Param := items.filterMap Item.param?

def signalsOf (items : List Item) : List Signal := items.filterMap Item.signal?

def cellsOf (items : List Item) : List Cell := items.filterMap Item.cell?

def logicsOf (items : List Item) : List Logic := items.filterMap Item.logic?

/-- The names that items declare, in order. -/
def namesOf (items : List Item) : List String := items.filterMap Item.name?

/-- What items declare, in order, as it stands in the table of names. -/
def entriesOf (items : List Item) : List (String × DeclKind) := items.filterMap Item.entry?

section
variable (xs ys : List Item)

@[simp] theorem portsOf_append : portsOf (xs ++ ys) = portsOf xs ++ portsOf ys :=
  List.filterMap_append

@[simp] theorem paramsOf_append : paramsOf (xs ++ ys) = paramsOf xs ++ paramsOf ys :=
  List.filterMap_append

@[simp] theorem signalsOf_append : signalsOf (xs ++ ys) = signalsOf xs ++ signalsOf ys :=
  List.filterMap_append

@[simp] theorem cellsOf_append : cellsOf (xs ++ ys) = cellsOf xs ++ cellsOf ys :=
  List.filterMap_append

@[simp] theorem logicsOf_append : logicsOf (xs ++ ys) = logicsOf xs ++ logicsOf ys :=
  List.filterMap_append

@[simp] theorem namesOf_append : namesOf (xs ++ ys) = namesOf xs ++ namesOf ys :=
  List.filterMap_append

@[simp] theorem entriesOf_append : entriesOf (xs ++ ys) = entriesOf xs ++ entriesOf ys :=
  List.filterMap_append

end

@[simp] theorem mem_portsOf {p : Port} {items : List Item} :
    p ∈ portsOf items ↔ .port p ∈ items := by
  unfold portsOf
  rw [List.mem_filterMap]
  constructor
  · rintro ⟨i, hi, he⟩
    cases i <;> simp_all [Item.port?]
  · exact fun h => ⟨_, h, rfl⟩

@[simp] theorem mem_signalsOf {s : Signal} {items : List Item} :
    s ∈ signalsOf items ↔ .signal s ∈ items := by
  unfold signalsOf
  rw [List.mem_filterMap]
  constructor
  · rintro ⟨i, hi, he⟩
    cases i <;> simp_all [Item.signal?]
  · exact fun h => ⟨_, h, rfl⟩

@[simp] theorem mem_logicsOf {l : Logic} {items : List Item} :
    l ∈ logicsOf items ↔ .logic l ∈ items := by
  unfold logicsOf
  rw [List.mem_filterMap]
  constructor
  · rintro ⟨i, hi, he⟩
    cases i <;> simp_all [Item.logic?]
  · exact fun h => ⟨_, h, rfl⟩

theorem namesOf_cons (i : Item) (items : List Item) :
    namesOf (i :: items) = i.name?.toList ++ namesOf items := by
  cases hi : i.name? <;> simp [namesOf, hi]

theorem mem_namesOf {n : String} {items : List Item} :
    n ∈ namesOf items ↔ ∃ i ∈ items, i.name? = some n := List.mem_filterMap

theorem name_mem_of_signal {s : Signal} {items : List Item} (h : .signal s ∈ items) :
    s.name ∈ namesOf items := mem_namesOf.2 ⟨_, h, rfl⟩

section
variable (ss : List Signal) (ls : List Logic)

@[simp] theorem logicsOf_map_logic : logicsOf (ls.map .logic) = ls := by
  simp [logicsOf, List.filterMap_map, Function.comp_def, Item.logic?]

@[simp] theorem logicsOf_map_signal : logicsOf (ss.map .signal) = [] := by
  simp [logicsOf, List.filterMap_map, Function.comp_def, Item.logic?]

@[simp] theorem signalsOf_map_signal : signalsOf (ss.map .signal) = ss := by
  simp [signalsOf, List.filterMap_map, Function.comp_def, Item.signal?]

@[simp] theorem portsOf_map_logic : portsOf (ls.map .logic) = [] := by
  simp [portsOf, List.filterMap_map, Function.comp_def, Item.port?]

@[simp] theorem paramsOf_map_logic : paramsOf (ls.map .logic) = [] := by
  simp [paramsOf, List.filterMap_map, Function.comp_def, Item.param?]

@[simp] theorem signalsOf_map_logic : signalsOf (ls.map .logic) = [] := by
  simp [signalsOf, List.filterMap_map, Function.comp_def, Item.signal?]

@[simp] theorem cellsOf_map_logic : cellsOf (ls.map .logic) = [] := by
  simp [cellsOf, List.filterMap_map, Function.comp_def, Item.cell?]

@[simp] theorem entriesOf_map_logic : entriesOf (ls.map .logic) = [] := by
  simp [entriesOf, List.filterMap_map, Function.comp_def, Item.entry?, Item.declares?]

@[simp] theorem namesOf_map_logic : namesOf (ls.map .logic) = [] := by
  simp [namesOf, List.filterMap_map, Function.comp_def, Item.name?, Item.declares?]

end

theorem namesOf_map_port (ports : List Port) : namesOf (ports.map .port) = ports.map Port.name := by
  simp [namesOf, List.filterMap_map, Function.comp_def, Item.name?, Item.declares?]

theorem namesOf_map_param (params : List Param) :
    namesOf (params.map .param) = params.map Param.name := by
  simp [namesOf, List.filterMap_map, Function.comp_def, Item.name?, Item.declares?]

theorem map_fst_entriesOf (items : List Item) : (entriesOf items).map Prod.fst = namesOf items := by
  rw [entriesOf, namesOf, List.map_filterMap]
  congr 1
  funext i
  simp [Item.entry?, Item.name?, Function.comp_def]

namespace Module

variable {m m' m'' : Module} {items xs ys : List Item} {n : String}

/-- Adds an item without any check: its name goes into the table, and the item to the end of its
region. -/
def push (m : Module) (i : Item) : Module :=
  match i.declares? with
  | some (kind, name) => (m.enter kind name).place i
  | none => m.place i

section
variable (m : Module)

@[simp] theorem push_port (p : Port) : m.push (.port p) =
    { m with ports := m.ports ++ [p], table := some (m.entries ++ [(p.name, .port)]) } := rfl

@[simp] theorem push_param (p : Param) : m.push (.param p) =
    { m with params := m.params ++ [p], table := some (m.entries ++ [(p.name, .parameter)]) } := rfl

@[simp] theorem push_signal (s : Signal) : m.push (.signal s) =
    { m with signals := m.signals ++ [s], table := some (m.entries ++ [(s.name, .signal)]) } := rfl

@[simp] theorem push_cell (c : Cell) : m.push (.cell c) =
    { m with cells := m.cells ++ [c], table := some (m.entries ++ [(c.name, .cell)]) } := rfl

@[simp] theorem push_logic (l : Logic) :
    m.push (.logic l) = { m with logics := m.logics ++ [l] } := rfl

theorem entries_push (i : Item) : (m.push i).entries = m.entries ++ i.entry?.toList := by
  cases i <;> simp [entries, Item.entry?, Item.declares?]

end

/-- Adds items without any check. -/
def pushAll (m : Module) (items : List Item) : Module := items.foldl push m

theorem ports_pushAll (m : Module) (items : List Item) :
    (m.pushAll items).ports = m.ports ++ portsOf items := by
  induction items generalizing m with
  | nil => simp [pushAll, portsOf]
  | cons i items ih =>
    rw [show m.pushAll (i :: items) = (m.push i).pushAll items from rfl, ih]
    cases i <;> simp [portsOf, List.filterMap_cons, Item.port?]

theorem params_pushAll (m : Module) (items : List Item) :
    (m.pushAll items).params = m.params ++ paramsOf items := by
  induction items generalizing m with
  | nil => simp [pushAll, paramsOf]
  | cons i items ih =>
    rw [show m.pushAll (i :: items) = (m.push i).pushAll items from rfl, ih]
    cases i <;> simp [paramsOf, List.filterMap_cons, Item.param?]

theorem signals_pushAll (m : Module) (items : List Item) :
    (m.pushAll items).signals = m.signals ++ signalsOf items := by
  induction items generalizing m with
  | nil => simp [pushAll, signalsOf]
  | cons i items ih =>
    rw [show m.pushAll (i :: items) = (m.push i).pushAll items from rfl, ih]
    cases i <;> simp [signalsOf, List.filterMap_cons, Item.signal?]

theorem cells_pushAll (m : Module) (items : List Item) :
    (m.pushAll items).cells = m.cells ++ cellsOf items := by
  induction items generalizing m with
  | nil => simp [pushAll, cellsOf]
  | cons i items ih =>
    rw [show m.pushAll (i :: items) = (m.push i).pushAll items from rfl, ih]
    cases i <;> simp [cellsOf, List.filterMap_cons, Item.cell?]

theorem logics_pushAll (m : Module) (items : List Item) :
    (m.pushAll items).logics = m.logics ++ logicsOf items := by
  induction items generalizing m with
  | nil => simp [pushAll, logicsOf]
  | cons i items ih =>
    rw [show m.pushAll (i :: items) = (m.push i).pushAll items from rfl, ih]
    cases i <;> simp [logicsOf, List.filterMap_cons, Item.logic?]

theorem name_pushAll (m : Module) (items : List Item) : (m.pushAll items).name = m.name := by
  induction items generalizing m with
  | nil => rfl
  | cons i items ih =>
    rw [show m.pushAll (i :: items) = (m.push i).pushAll items from rfl, ih]
    cases i <;> rfl

theorem verbatim_pushAll (m : Module) (items : List Item) :
    (m.pushAll items).verbatim = m.verbatim := by
  induction items generalizing m with
  | nil => rfl
  | cons i items ih =>
    rw [show m.pushAll (i :: items) = (m.push i).pushAll items from rfl, ih]
    cases i <;> rfl

theorem entries_pushAll (m : Module) (items : List Item) :
    (m.pushAll items).entries = m.entries ++ entriesOf items := by
  induction items generalizing m with
  | nil => simp [pushAll, entriesOf]
  | cons i items ih =>
    rw [show m.pushAll (i :: items) = (m.push i).pushAll items from rfl, ih, entries_push]
    cases hi : i.entry? <;> simp [entriesOf, hi]

/-! ### The table and the regions -/

theorem declared_iff {n : String} : m.declared n = true ↔ n ∈ m.entries.map Prod.fst := by
  simp [declared, kindOf?, List.lookup_isSome_iff]

/-- What stands in the regions that declare names, region by region. -/
def declarations (m : Module) : List (String × DeclKind) :=
  m.ports.map (fun p => (p.name, .port)) ++ m.params.map (fun p => (p.name, .parameter)) ++
    m.signals.map (fun s => (s.name, .signal)) ++ m.cells.map fun c => (c.name, .cell)

/-- The names in use, region by region. -/
def names (m : Module) : List String := m.declarations.map Prod.fst

/-- The table says what stands in the regions. -/
def Tallied (m : Module) : Prop := m.entries.Perm m.declarations

/-- A new entry goes to the end of its region, in front of the regions behind it. -/
theorem declarations_push (m : Module) (i : Item) :
    (m.push i).declarations.Perm (m.declarations ++ i.entry?.toList) := by
  have hmove (xs ys : List (String × DeclKind)) (x : String × DeclKind) :
      (xs ++ [x] ++ ys).Perm (xs ++ ys ++ [x]) := by
    rw [List.append_assoc, List.append_assoc]
    exact List.Perm.append_left xs List.perm_append_comm
  cases i with
  | port p =>
    simp only [declarations, push_port, List.map_append]
    refine (((hmove _ _ _).append_right _).trans (hmove _ _ _)).append_right _ |>.trans (hmove _ _ _)
  | param p =>
    simp only [declarations, push_param, List.map_append, ← List.append_assoc]
    exact ((hmove _ _ _).append_right _).trans (hmove _ _ _)
  | signal s =>
    simp only [declarations, push_signal, List.map_append, ← List.append_assoc]
    exact hmove _ _ _
  | cell c => simp [declarations, Item.entry?, Item.declares?]
  | logic l => simp [declarations, Item.entry?, Item.declares?]

theorem Tallied.push (h : m.Tallied) (i : Item) : (m.push i).Tallied := by
  rw [Tallied, entries_push]
  exact (List.Perm.append_right _ h).trans (m.declarations_push i).symm

theorem Tallied.pushAll (h : m.Tallied) (items : List Item) : (m.pushAll items).Tallied := by
  induction items generalizing m with
  | nil => exact h
  | cons i items ih => exact ih (h.push i)

theorem Tallied.declared_iff (h : m.Tallied) : m.declared n = true ↔ n ∈ m.names := by
  rw [Module.declared_iff, names]
  exact (List.Perm.map Prod.fst h).mem_iff

theorem Tallied.names_pushAll (h : m.Tallied) (items : List Item) :
    (m.pushAll items).names.Perm (m.names ++ namesOf items) := by
  have hperm := ((h.pushAll items).symm.map Prod.fst)
  rw [entries_pushAll, List.map_append, map_fst_entriesOf] at hperm
  exact hperm.trans (List.Perm.append_right _ (h.map Prod.fst))

theorem mem_names_of_port {p : Port} (h : p ∈ m.ports) : p.name ∈ m.names := by
  have hmem : (p.name, .port) ∈ m.declarations := by
    simpa [declarations] using ⟨p, h, rfl⟩
  exact List.mem_map_of_mem (f := Prod.fst) hmem

theorem mem_names_of_signal {s : Signal} (h : s ∈ m.signals) : s.name ∈ m.names := by
  have hmem : (s.name, .signal) ∈ m.declarations := by
    simpa [declarations] using ⟨s, h, rfl⟩
  exact List.mem_map_of_mem (f := Prod.fst) hmem

theorem tallied_new (name : String) : (new name).Tallied := .refl _

theorem declared_push {i : Item} {n : String} :
    (m.push i).declared n = true ↔ m.declared n = true ∨ i.name? = some n := by
  rw [declared_iff, declared_iff, entries_push, List.map_append, List.mem_append]
  cases hi : i.declares? with
  | none => simp [Item.entry?, Item.name?, hi]
  | some d => simp [Item.entry?, Item.name?, hi, eq_comm]

theorem add_ok {i : Item} (h : m.add i = .ok m') :
    m' = m.push i ∧ ∀ n, i.name? = some n → n ≠ "" ∧ m.declared n = false := by
  cases hi : i.declares? with
  | none =>
    simp only [add, hi, pure, Except.pure, Except.ok.injEq] at h
    exact ⟨by simp only [push, hi, h], fun n hn => by simp [Item.name?, hi] at hn⟩
  | some d =>
    obtain ⟨kind, name⟩ := d
    simp only [add, hi, declare] at h
    split at h
    · cases h
    · rename_i hne
      cases hk : m.kindOf? name with
      | some k => simp [hk, bind, Except.bind] at h
      | none =>
        simp only [hk, bind, Except.bind, pure, Except.pure, Except.ok.injEq] at h
        refine ⟨by simp only [push, hi, h], fun n hn => ?_⟩
        simp only [Item.name?, hi, Option.map_some, Option.some.injEq] at hn
        subst hn
        exact ⟨by simpa using hne, by simp [declared, hk]⟩

theorem add_of_fresh {i : Item} (h : ∀ n, i.name? = some n → n ≠ "" ∧ m.declared n = false) :
    m.add i = .ok (m.push i) := by
  unfold add push
  cases hd : i.declares? with
  | none => rfl
  | some d =>
    obtain ⟨kind, name⟩ := d
    obtain ⟨hne, hnew⟩ := h name (by simp [Item.name?, hd])
    have hkind : m.kindOf? name = none := by simpa [declared] using hnew
    have hdeclare : m.declare kind name = .ok (m.enter kind name) := by
      simp [declare, hne, hkind]
    simp only [hdeclare]
    rfl

theorem addAll_nil : m.addAll [] = .ok m := rfl

theorem addAll_cons {i : Item} :
    m.addAll (i :: items) = .ok m' ↔ ∃ m₁, m.add i = .ok m₁ ∧ m₁.addAll items = .ok m' := by
  unfold addAll
  rw [addUntil]
  cases m.add i with
  | ok m₁ => simp
  | error e => simp

theorem addAll_append : m.addAll (xs ++ ys) = .ok m'' ↔
    ∃ m', m.addAll xs = .ok m' ∧ m'.addAll ys = .ok m'' := by
  induction xs generalizing m with
  | nil => simp [addAll_nil]
  | cons x xs ih =>
    simp only [List.cons_append, addAll_cons, ih]
    constructor
    · rintro ⟨m₁, h₁, m', h₂, h₃⟩; exact ⟨m', ⟨m₁, h₁, h₂⟩, h₃⟩
    · rintro ⟨m', ⟨m₁, h₁, h₂⟩, h₃⟩; exact ⟨m₁, h₁, m', h₂, h₃⟩

theorem addAll_eq (h : m.addAll items = .ok m') : m' = m.pushAll items := by
  induction items generalizing m with
  | nil => exact (Except.ok.inj h).symm
  | cons i items ih =>
    obtain ⟨m₁, h₁, h₂⟩ := addAll_cons.1 h
    rw [ih h₂, (add_ok h₁).1]
    rfl

theorem name_of_addAll (h : m.addAll items = .ok m') : m'.name = m.name := by
  rw [addAll_eq h, name_pushAll]

theorem declared_pushAll :
    (m.pushAll items).declared n = true ↔ m.declared n = true ∨ n ∈ namesOf items := by
  rw [declared_iff, declared_iff, entries_pushAll, List.map_append, map_fst_entriesOf,
    List.mem_append]

theorem declared_addAll (h : m.addAll items = .ok m') :
    m'.declared n = true ↔ m.declared n = true ∨ n ∈ namesOf items := by
  rw [addAll_eq h, declared_pushAll]

/-- Items that were all added have names that are new and pairwise different. -/
theorem nodup_of_addAll (h : m.addAll items = .ok m') :
    (namesOf items).Nodup ∧ ∀ n ∈ namesOf items, m.declared n = false := by
  induction items generalizing m with
  | nil => simp [namesOf]
  | cons i items ih =>
    obtain ⟨m₁, h₁, h₂⟩ := addAll_cons.1 h
    obtain ⟨rfl, hfresh⟩ := add_ok h₁
    obtain ⟨hnd, hnew⟩ := ih h₂
    have hnew' : ∀ n ∈ namesOf items, m.declared n = false ∧ i.name? ≠ some n := by
      intro n hn
      have := hnew n hn
      rw [← Bool.not_eq_true, declared_push, not_or] at this
      exact ⟨by simpa using this.1, this.2⟩
    rw [namesOf_cons]
    cases hi : i.name? with
    | none => exact ⟨hnd, fun n hn => (hnew' n hn).1⟩
    | some k =>
      refine ⟨List.nodup_cons.2 ⟨fun hk => (hnew' k hk).2 hi, hnd⟩, fun n hn => ?_⟩
      rcases List.mem_cons.1 hn with rfl | hn
      · exact (hfresh _ hi).2
      · exact (hnew' n hn).1

/-- Items with names that are new and pairwise different can all be added. -/
theorem addAll_of_fresh (hnodup : (namesOf items).Nodup)
    (h : ∀ n ∈ namesOf items, n ≠ "" ∧ m.declared n = false) :
    m.addAll items = .ok (m.pushAll items) := by
  induction items generalizing m with
  | nil => rfl
  | cons i items ih =>
    rw [namesOf_cons, List.nodup_append] at hnodup
    rw [namesOf_cons] at h
    refine addAll_cons.2 ⟨m.push i, add_of_fresh fun n hn => ?_, ih hnodup.2.1 fun n hn => ?_⟩
    · exact h n (List.mem_append_left _ (by simp [hn]))
    · obtain ⟨hne, hnew⟩ := h n (List.mem_append_right _ hn)
      refine ⟨hne, ?_⟩
      rw [← Bool.not_eq_true, declared_push, not_or]
      refine ⟨by simp [hnew], fun hi => ?_⟩
      exact hnodup.2.2 n (by simp [hi]) n hn rfl

/-- A module with nothing but ports and parameters, as adding these one after the other gives it. -/
def ofInterface (name verbatim : String) (ports : List Port) (params : List Param) : Module :=
  { name := name, verbatim := verbatim, ports := ports, params := params
    table := some (ports.map (fun p => (p.name, .port)) ++
      params.map fun p => (p.name, .parameter)) }

theorem names_ofInterface (name verbatim : String) (ports : List Port) (params : List Param) :
    (ofInterface name verbatim ports params).names =
      ports.map Port.name ++ params.map Param.name := by
  simp [names, declarations, ofInterface, Function.comp_def]

theorem pushAll_ports {t : List (String × DeclKind)} (h : m.table = some t) (ps : List Port) :
    m.pushAll (ps.map .port) =
      { m with ports := m.ports ++ ps, table := some (t ++ ps.map fun p => (p.name, .port)) } := by
  induction ps generalizing m t with
  | nil => simp [pushAll, ← h]
  | cons p ps ih =>
    rw [List.map_cons, show m.pushAll (.port p :: ps.map .port) =
      (m.push (.port p)).pushAll (ps.map .port) from rfl, ih rfl]
    simp [entries, h]

theorem pushAll_params {t : List (String × DeclKind)} (h : m.table = some t) (ps : List Param) :
    m.pushAll (ps.map .param) =
      { m with params := m.params ++ ps
               table := some (t ++ ps.map fun p => (p.name, .parameter)) } := by
  induction ps generalizing m t with
  | nil => simp [pushAll, ← h]
  | cons p ps ih =>
    rw [List.map_cons, show m.pushAll (.param p :: ps.map .param) =
      (m.push (.param p)).pushAll (ps.map .param) from rfl, ih rfl]
    simp [entries, h]

theorem pushAll_interface (name : String) (ports : List Port) (params : List Param) :
    (new name).pushAll (ports.map .port ++ params.map .param) = ofInterface name "" ports params := by
  rw [pushAll, List.foldl_append, ← pushAll, ← pushAll, pushAll_ports rfl, pushAll_params rfl]
  rfl

end Module

end TaskLoom
