import TaskLoom.Hdl.Pipeline
import TaskLoom.Proofs.Hdl.Items
import Mathlib.Data.List.Perm.Basic
import Mathlib.Tactic.IntervalCases

/-!
# Calls that add to a module

A module is grown by calls, each of which adds some items in order and stops at the first one that
cannot be added (`Module.grow`).  Whether an item can be added is asked of the table of names, which
is kept beside the regions.  Each call enters in the table what it puts into the regions
(`Module.Tallied.grow`), so after any calls, failed ones included, the table says what stands in the
regions (`Module.Tallied.growAll`): the names in use are not empty and all different.

What a call adds is said region by region (`Module.Took`), and how many of its declarations were
carried out.

Main statement: `names_declared_once`.
-/

namespace TaskLoom

theorem lookup_eq_some_iff_mem {α β : Type} [BEq α] [LawfulBEq α] {l : List (α × β)}
    (h : (l.map Prod.fst).Nodup) {a : α} {b : β} : l.lookup a = some b ↔ (a, b) ∈ l := by
  induction l with
  | nil => simp
  | cons x l ih =>
    obtain ⟨hx, hl⟩ := List.nodup_cons.1 h
    rw [List.lookup_cons, List.mem_cons]
    by_cases he : a = x.1
    · subst he
      have hnot : (x.1, b) ∉ l := fun hmem => hx (List.mem_map.2 ⟨_, hmem, rfl⟩)
      simp [hnot, Prod.ext_iff, eq_comm]
    · rw [beq_false_of_ne he]
      simp [ih hl, Prod.ext_iff, he]

theorem mem_of_lookup {α β : Type} [BEq α] [LawfulBEq α] {l : List (α × β)} {a : α} {b : β}
    (h : l.lookup a = some b) : (a, b) ∈ l := by
  obtain ⟨l₁, l₂, rfl, -⟩ := List.lookup_eq_some_iff.1 h
  simp

/-- What one call adds to a module. -/
inductive Addition where
  | ports (ps : List Port)
  | params (ps : List Param)
  | signals (ss : List Signal)
  | cell (c : Cell)
  | logics (ls : List Logic)
  | pipeline (p : Pipeline) (seed : Expr)

namespace Addition

/-- The items of a call, in the order in which they are added. -/
def items : Addition → List Item
  | .ports ps => ps.map .port
  | .params ps => ps.map .param
  | .signals ss => ss.map .signal
  | .cell c => [.cell c]
  | .logics ls => ls.map .logic
  | .pipeline p seed => p.items seed

/-- The names that a call declares, in order: those of a pipeline are its stages. -/
def declarations : Addition → List (String × DeclKind)
  | .ports ps => ps.map fun p => (p.name, .port)
  | .params ps => ps.map fun p => (p.name, .parameter)
  | .signals ss => ss.map fun s => (s.name, .signal)
  | .cell c => [(c.name, .cell)]
  | .logics _ => []
  | .pipeline p _ => (List.range (p.level + 1)).map fun i => (p.stageName i, .signal)

def newPorts : Addition → List Port
  | .ports ps => ps
  | _ => []

def newParams : Addition → List Param
  | .params ps => ps
  | _ => []

/-- The signals of a call: a pipeline has a wire for its first stage and a register for each later
one. -/
def newSignals : Addition → List Signal
  | .signals ss => ss
  | .pipeline p _ => ⟨p.stageName 0, .wire, p.range, []⟩ ::
      (List.range p.level).map fun i => ⟨p.stageName (i + 1), .reg, p.range, [keepAttr]⟩
  | _ => []

def newCells : Addition → List Cell
  | .cell c => [c]
  | _ => []

/-- The logic of a call: the first stage of a pipeline follows the driving expression, and at each
clock every later stage takes over the one before it. -/
def newLogics : Addition → List Logic
  | .logics ls => ls
  | .pipeline p seed => .assign (p.stageName 0) seed ::
      if 0 < p.level then
        [.clocked ((List.range p.level).map fun i =>
          .assign (p.stageName (i + 1)) (.ident (p.stageName i))) false]
      else []
  | _ => []

end Addition

namespace Module

/-- The module after a call, and why the call failed, if it did. -/
def grow (m : Module) (a : Addition) : Module × Option BuildError := m.addUntil a.items

/-- The module after some calls, failed ones included. -/
def growAll (m : Module) (as : List Addition) : Module := as.foldl (fun m a => (m.grow a).1) m

/-- No name is empty, and none is used twice, in one region or in two. -/
structure DeclaresOnce (m : Module) : Prop where
  named : "" ∉ m.names
  distinct : m.names.Nodup

/-- Every region of `m` is the beginning of that region of `m'`. -/
structure Begins (m m' : Module) : Prop where
  name : m'.name = m.name
  verbatim : m'.verbatim = m.verbatim
  ports : m.ports <+: m'.ports
  params : m.params <+: m'.params
  signals : m.signals <+: m'.signals
  cells : m.cells <+: m'.cells
  logics : m.logics <+: m'.logics

/-- Names that can be declared one after the other: new, not empty and all different. -/
structure Admits (m : Module) (names : List String) : Prop where
  named : "" ∉ names
  fresh : ∀ n ∈ names, m.declared n = false
  distinct : names.Nodup

/-- The `k`-th declaration of a call meets an empty name, or one that is in use by then. -/
def Blocks (m : Module) (a : Addition) (k : Nat) : Prop :=
  ∃ n kind, a.declarations[k]? = some (n, kind) ∧
    (n = "" ∨ n ∈ m.names ∨ n ∈ (a.declarations.take k).map Prod.fst)

/-- Of a call to `m`, which is `m'` then, the first `k` declarations have been carried out, and its
logic has been added if these were all.  What was there before stands in front. -/
structure Took (m m' : Module) (a : Addition) (k : Nat) : Prop where
  name : m'.name = m.name
  verbatim : m'.verbatim = m.verbatim
  ports : m'.ports = m.ports ++ a.newPorts.take k
  params : m'.params = m.params ++ a.newParams.take k
  signals : m'.signals = m.signals ++ a.newSignals.take k
  cells : m'.cells = m.cells ++ a.newCells.take k
  logics : m'.logics = m.logics ++ if k = a.declarations.length then a.newLogics else []
  entries : m'.entries = m.entries ++ a.declarations.take k

/-- The item cannot be added, for the reason that the failure says. -/
inductive Refuses (m : Module) (i : Item) : BuildError → Prop
  | unnamed {kind : DeclKind} (h : i.declares? = some (kind, "")) :
    Refuses m i (.emptyName m.name kind)
  | inUse {kind earlier : DeclKind} {n : String} (h : i.declares? = some (kind, n)) (hn : n ≠ "")
    (huse : m.kindOf? n = some earlier) : Refuses m i (.alreadyDeclared m.name kind n earlier)

variable {m m' : Module} {i : Item} {items : List Item} {e : BuildError} {n : String}
  {a : Addition} {k : Nat}

theorem Took.begins (h : m.Took m' a k) : m.Begins m' where
  name := h.name
  verbatim := h.verbatim
  ports := h.ports ▸ List.prefix_append _ _
  params := h.params ▸ List.prefix_append _ _
  signals := h.signals ▸ List.prefix_append _ _
  cells := h.cells ▸ List.prefix_append _ _
  logics := h.logics ▸ List.prefix_append _ _

/-! ### How a call ends -/

theorem add_refused (h : m.add i = .error e) : m.Refuses i e := by
  unfold add at h
  split at h
  · rename_i kind n hi
    unfold declare at h
    split at h
    · rename_i hn
      cases h
      exact .unnamed (by rw [hi, beq_iff_eq.1 hn])
    · rename_i hn
      split at h
      · rename_i earlier huse
        cases h
        exact .inUse hi (by simpa using hn) huse
      · cases h
  · cases h

theorem Refuses.name (h : m.Refuses i e) :
    ∃ n, i.name? = some n ∧ (n = "" ∨ n ≠ "" ∧ m.declared n = true) := by
  cases h with
  | unnamed h => exact ⟨"", by rw [Item.name?, h]; rfl, .inl rfl⟩
  | @inUse kind earlier n h hn huse =>
    exact ⟨n, by rw [Item.name?, h]; rfl, .inr ⟨hn, by rw [declared, huse]; rfl⟩⟩

theorem Admits.nil (m : Module) : m.Admits [] := ⟨by simp, by simp, List.nodup_nil⟩

theorem Admits.cons (h : m.Admits (i.name?.toList)) (h' : (m.push i).Admits (namesOf items)) :
    m.Admits (namesOf (i :: items)) := by
  have hfresh : ∀ n ∈ namesOf items, m.declared n = false ∧ n ∉ i.name?.toList := fun n hn => by
    have hnew := h'.fresh n hn
    rw [← Bool.not_eq_true, declared_push, not_or] at hnew
    exact ⟨by simpa using hnew.1, by simpa using hnew.2⟩
  rw [namesOf_cons]
  refine ⟨?_, fun n hn => ?_,
    List.nodup_append.2 ⟨h.distinct, h'.distinct, fun x hx y hy hxy => ?_⟩⟩
  · rw [List.mem_append, not_or]
    exact ⟨h.named, h'.named⟩
  · rcases List.mem_append.1 hn with hn | hn
    · exact h.fresh n hn
    · exact (hfresh n hn).1
  · exact (hfresh y hy).2 (hxy ▸ hx)

theorem Admits.single (hi : ∀ n, i.name? = some n → n ≠ "" ∧ m.declared n = false) :
    m.Admits (i.name?.toList) := by
  cases hname : i.name? with
  | none => exact .nil m
  | some n =>
    obtain ⟨hne, hnew⟩ := hi n hname
    exact ⟨by simpa using hne.symm, by simpa using hnew, by simp⟩

theorem Admits.addAll (h : m.Admits (namesOf items)) : m.addAll items = .ok (m.pushAll items) :=
  addAll_of_fresh h.distinct fun n hn => ⟨fun he => h.named (he ▸ hn), h.fresh n hn⟩

/-- Items are all added, or those before the first one that is refused. -/
theorem addUntil_cases (m : Module) (items : List Item) :
    m.addUntil items = (m.pushAll items, none) ∧ m.Admits (namesOf items) ∨
    ∃ before i after e, items = before ++ i :: after ∧
      m.addUntil items = (m.pushAll before, some e) ∧ m.Admits (namesOf before) ∧
      (m.pushAll before).Refuses i e := by
  induction items generalizing m with
  | nil => exact .inl ⟨rfl, .nil m⟩
  | cons i items ih =>
    cases hi : m.add i with
    | error e =>
      refine .inr ⟨[], i, items, e, rfl, ?_, .nil m, add_refused hi⟩
      rw [addUntil, hi]
      rfl
    | ok m₁ =>
      obtain ⟨rfl, hfresh⟩ := add_ok hi
      have hadd : m.addUntil (i :: items) = (m.push i).addUntil items := by rw [addUntil, hi]
      have hsingle : m.Admits i.name?.toList := .single hfresh
      rw [hadd]
      rcases ih (m.push i) with ⟨hall, hadmits⟩ | ⟨before, j, after, e, rfl, hall, hadmits, hj⟩
      · exact .inl ⟨hall, hsingle.cons hadmits⟩
      · exact .inr ⟨i :: before, j, after, e, rfl, hall, hsingle.cons hadmits, hj⟩

end Module

namespace Addition

variable (a : Addition)

/-- The items of a call that declare a name: all of them but its logic. -/
def declaring : Addition → List Item
  | .ports ps => ps.map .port
  | .params ps => ps.map .param
  | .signals ss => ss.map .signal
  | .cell c => [.cell c]
  | .logics _ => []
  | .pipeline p _ => p.signals.map .signal

theorem items_eq : a.items = a.declaring ++ a.newLogics.map .logic := by
  cases a with
  | pipeline p seed =>
    by_cases hp : p.level = 0
    · simp [items, declaring, newLogics, Pipeline.items, Pipeline.logic, Pipeline.first, hp]
    · simp [items, declaring, newLogics, Pipeline.items, Pipeline.logic, Pipeline.first, hp,
        Nat.pos_of_ne_zero hp]
  | _ => simp [items, declaring, newLogics]

theorem map_entry_declaring : a.declaring.map Item.entry? = a.declarations.map some := by
  cases a with
  | pipeline p seed =>
    simp [declaring, declarations, Pipeline.signals, Pipeline.first, List.range_succ_eq_map,
      Item.entry?, Item.declares?, Function.comp_def]
  | _ => simp [declaring, declarations, Item.entry?, Item.declares?, Function.comp_def]

theorem length_declaring : a.declaring.length = a.declarations.length := by
  simpa using congrArg List.length a.map_entry_declaring

theorem entriesOf_declaring (k : Nat) :
    entriesOf (a.declaring.take k) = a.declarations.take k := by
  have hall : (a.declaring.take k).map Item.entry? = (a.declarations.take k).map some := by
    rw [List.map_take, List.map_take, a.map_entry_declaring]
  calc entriesOf (a.declaring.take k)
      = ((a.declaring.take k).map Item.entry?).filterMap id := by
        rw [entriesOf, List.filterMap_map]
        rfl
    _ = a.declarations.take k := by
        rw [hall, List.filterMap_map]
        exact List.filterMap_some

theorem portsOf_declaring (k : Nat) : portsOf (a.declaring.take k) = a.newPorts.take k := by
  cases a with
  | cell c => cases k <;> simp [declaring, newPorts, portsOf, Item.port?]
  | _ => simp [declaring, newPorts, ← List.map_take, portsOf, List.filterMap_map,
      Function.comp_def, Item.port?]

theorem paramsOf_declaring (k : Nat) : paramsOf (a.declaring.take k) = a.newParams.take k := by
  cases a with
  | cell c => cases k <;> simp [declaring, newParams, paramsOf, Item.param?]
  | _ => simp [declaring, newParams, ← List.map_take, paramsOf, List.filterMap_map,
      Function.comp_def, Item.param?]

theorem signalsOf_declaring (k : Nat) : signalsOf (a.declaring.take k) = a.newSignals.take k := by
  cases a with
  | cell c => cases k <;> simp [declaring, newSignals, signalsOf, Item.signal?]
  | pipeline p seed =>
    rw [declaring, ← List.map_take, signalsOf_map_signal]
    rfl
  | _ => simp [declaring, newSignals, ← List.map_take, signalsOf, List.filterMap_map,
      Function.comp_def, Item.signal?]

theorem cellsOf_declaring (k : Nat) : cellsOf (a.declaring.take k) = a.newCells.take k := by
  cases a with
  | cell c => cases k <;> simp [declaring, newCells, cellsOf, Item.cell?]
  | _ => simp [declaring, newCells, ← List.map_take, cellsOf, List.filterMap_map,
      Function.comp_def, Item.cell?]

theorem logicsOf_declaring (k : Nat) : logicsOf (a.declaring.take k) = [] := by
  cases a with
  | cell c => cases k <;> simp [declaring, logicsOf, Item.logic?]
  | _ => simp [declaring, ← List.map_take, logicsOf, List.filterMap_map, Function.comp_def,
      Item.logic?]

end Addition

namespace Module

variable {m : Module} {a : Addition} {i : Item} {n : String} {k : Nat}

/-- The first `k` items of a call, and its logic behind the last one. -/
theorem took_pushAll (m : Module) (a : Addition) (k : Nat) :
    m.Took (m.pushAll (a.declaring.take k ++
      (if k = a.declarations.length then a.newLogics else []).map .logic)) a k where
  name := m.name_pushAll _
  verbatim := m.verbatim_pushAll _
  ports := by rw [ports_pushAll, portsOf_append, a.portsOf_declaring, portsOf_map_logic,
    List.append_nil]
  params := by rw [params_pushAll, paramsOf_append, a.paramsOf_declaring, paramsOf_map_logic,
    List.append_nil]
  signals := by rw [signals_pushAll, signalsOf_append, a.signalsOf_declaring, signalsOf_map_logic,
    List.append_nil]
  cells := by rw [cells_pushAll, cellsOf_append, a.cellsOf_declaring, cellsOf_map_logic,
    List.append_nil]
  logics := by rw [logics_pushAll, logicsOf_append, a.logicsOf_declaring, logicsOf_map_logic,
    List.nil_append]
  entries := by rw [entries_pushAll, entriesOf_append, a.entriesOf_declaring, entriesOf_map_logic,
    List.append_nil]

theorem took_all (m : Module) (a : Addition) :
    m.Took (m.pushAll a.items) a a.declarations.length := by
  have h := m.took_pushAll a a.declarations.length
  rwa [if_pos rfl, ← a.length_declaring, List.take_length, ← a.items_eq, a.length_declaring] at h

theorem took_take (m : Module) (hk : k < a.declarations.length) :
    m.Took (m.pushAll (a.declaring.take k)) a k := by
  have h := m.took_pushAll a k
  rwa [if_neg (by omega), List.map_nil, List.append_nil] at h

/-- The items of a call before one that has a name are the first ones. -/
theorem exists_declaration {before after : List Item} (h : a.items = before ++ i :: after)
    (hi : i.name? = some n) : ∃ k kind, a.declarations[k]? = some (n, kind) ∧
      i.declares? = some (kind, n) ∧ before = a.declaring.take k := by
  obtain ⟨⟨kind, n'⟩, hdecl, hn'⟩ := Option.map_eq_some_iff.1 hi
  obtain rfl : n' = n := hn'
  have hlogic : i ∉ a.newLogics.map .logic := by
    intro hmem
    obtain ⟨l, -, rfl⟩ := List.mem_map.1 hmem
    cases hi
  -- the item stands among those that declare something
  obtain ⟨mid, hmid⟩ : ∃ mid, a.declaring = before ++ i :: mid := by
    rcases List.append_eq_append_iff.1 (a.items_eq ▸ h) with ⟨mid, -, hmid⟩ | ⟨mid, hmid, hafter⟩
    · exact absurd (by simp [hmid]) hlogic
    · cases mid with
      | nil =>
        rw [List.nil_append] at hafter
        exact absurd (hafter ▸ List.mem_cons_self) hlogic
      | cons j mid =>
        obtain ⟨rfl, -⟩ := List.cons.inj hafter
        exact ⟨mid, hmid⟩
  have hget := congrArg (·[before.length]?) a.map_entry_declaring
  simp only [hmid, List.getElem?_map, List.getElem?_append_right (Nat.le_refl _), Nat.sub_self,
    List.getElem?_cons_zero, Option.map_some, Item.entry?, hdecl] at hget
  obtain ⟨x, hx, hx'⟩ := Option.map_eq_some_iff.1 hget.symm
  obtain rfl := Option.some.inj hx'
  exact ⟨before.length, kind, hx, hdecl, by rw [hmid, List.take_left]⟩

/-- How a call ends: everything is added, or an item that has a name is refused and those before it
are added. -/
theorem grow_cases (m : Module) (a : Addition) :
    (m.grow a).2 = none ∧ (m.grow a).1 = m.pushAll a.items ∧
      m.Admits (a.declarations.map Prod.fst) ∨
    ∃ k n kind e, a.declarations[k]? = some (n, kind) ∧
      m.grow a = (m.pushAll (a.declaring.take k), some e) ∧
      m.Admits ((a.declarations.take k).map Prod.fst) ∧
      (n = "" ∧ e = .emptyName m.name kind ∨
        ∃ earlier, n ≠ "" ∧ e = .alreadyDeclared m.name kind n earlier ∧
          (m.pushAll (a.declaring.take k)).kindOf? n = some earlier) := by
  rcases m.addUntil_cases a.items with ⟨hall, hadmits⟩ |
    ⟨before, i, after, e, hitems, hadd, hadmits, hrefused⟩
  · refine .inl ⟨by rw [grow, hall], by rw [grow, hall], ?_⟩
    have hnames : namesOf a.items = a.declarations.map Prod.fst := by
      have hdeclaring := a.entriesOf_declaring a.declarations.length
      rw [← a.length_declaring, List.take_length, a.length_declaring, List.take_length]
        at hdeclaring
      rw [a.items_eq, namesOf_append, namesOf_map_logic, List.append_nil, ← map_fst_entriesOf,
        hdeclaring]
    rwa [hnames] at hadmits
  · obtain ⟨n, hn, -⟩ := hrefused.name
    obtain ⟨k, kind, hk, hdecl, rfl⟩ := exists_declaration hitems hn
    rw [← map_fst_entriesOf, a.entriesOf_declaring] at hadmits
    refine .inr ⟨k, n, kind, e, hk, hadd, hadmits, ?_⟩
    cases hrefused with
    | unnamed h =>
      rw [hdecl] at h
      cases h
      exact .inl ⟨rfl, by rw [name_pushAll]⟩
    | inUse h hne huse =>
      rw [hdecl] at h
      cases h
      exact .inr ⟨_, hne, by rw [name_pushAll], huse⟩

theorem admits_append_singleton {names : List String} :
    m.Admits (names ++ [n]) ↔
      m.Admits names ∧ n ≠ "" ∧ m.declared n = false ∧ n ∉ names := by
  constructor
  · rintro ⟨hnamed, hfresh, hdistinct⟩
    rw [List.mem_append, not_or] at hnamed
    have hapart := List.nodup_append.1 hdistinct
    exact ⟨⟨hnamed.1, fun x hx => hfresh x (List.mem_append_left _ hx), hapart.1⟩,
      fun he => hnamed.2 (by simp [he]), hfresh n (by simp),
      fun hn => hapart.2.2 n hn n (by simp) rfl⟩
  · rintro ⟨⟨hnamed, hfresh, hdistinct⟩, hne, hnew, hn⟩
    refine ⟨by simp [hnamed, hne.symm], fun x hx => ?_, ?_⟩
    · rcases List.mem_append.1 hx with hx | hx
      · exact hfresh x hx
      · rwa [List.mem_singleton.1 hx]
    · exact List.nodup_append.2 ⟨hdistinct, by simp, fun x hx y hy hxy =>
        hn (List.mem_singleton.1 hy ▸ hxy ▸ hx)⟩

/-- The first `k` names of a call can be declared one after the other if none of them is in the
way. -/
theorem Tallied.admits_iff (h : m.Tallied) (a : Addition) (k : Nat) :
    m.Admits ((a.declarations.take k).map Prod.fst) ↔ ∀ j < k, ¬ m.Blocks a j := by
  induction k with
  | zero => exact iff_of_true (.nil m) nofun
  | succ k ih =>
    rw [Nat.forall_lt_succ_right, ← ih, List.take_add_one, List.map_append]
    cases hk : a.declarations[k]? with
    | none => simp [Blocks, hk]
    | some x =>
      have hblocks : m.Blocks a k ↔
          x.1 = "" ∨ x.1 ∈ m.names ∨ x.1 ∈ (a.declarations.take k).map Prod.fst := by
        constructor
        · rintro ⟨n, kind, hx, hbad⟩
          rw [hk] at hx
          cases hx
          exact hbad
        · exact fun hbad => ⟨x.1, x.2, hk, hbad⟩
      rw [hblocks, not_or, not_or, ← h.declared_iff, Bool.not_eq_true]
      exact admits_append_singleton

/-! ### Sequences of calls -/

theorem Tallied.grow (h : m.Tallied) (a : Addition) : (m.grow a).1.Tallied := by
  rcases m.grow_cases a with ⟨-, hgrow, -⟩ | ⟨k, n, kind, e, -, hgrow, -⟩
  all_goals
    rw [hgrow]
    exact h.pushAll _

/-- After any calls the table says what stands in the regions. -/
theorem Tallied.growAll (h : m.Tallied) (as : List Addition) : (m.growAll as).Tallied := by
  induction as generalizing m with
  | nil => exact h
  | cons a as ih => exact ih (h.grow a)

theorem DeclaresOnce.pushAll (h : m.DeclaresOnce) (ht : m.Tallied) {items : List Item}
    (hadmits : m.Admits (namesOf items)) : (m.pushAll items).DeclaresOnce := by
  have hperm := ht.names_pushAll items
  refine ⟨fun hmem => ?_, hperm.nodup_iff.2 ?_⟩
  · rcases List.mem_append.1 (hperm.mem_iff.1 hmem) with hmem | hmem
    · exact h.named hmem
    · exact hadmits.named hmem
  · refine List.nodup_append.2 ⟨h.distinct, hadmits.distinct, fun x hx y hy hxy => ?_⟩
    have hnew := hadmits.fresh y hy
    rw [← Bool.not_eq_true, ht.declared_iff] at hnew
    exact hnew (hxy ▸ hx)

theorem DeclaresOnce.grow (h : m.DeclaresOnce) (ht : m.Tallied) (a : Addition) :
    (m.grow a).1.DeclaresOnce := by
  rcases m.addUntil_cases a.items with ⟨hgrow, hadmits⟩ |
    ⟨before, i, after, e, -, hgrow, hadmits, -⟩
  all_goals
    rw [Module.grow, hgrow]
    exact h.pushAll ht hadmits

theorem DeclaresOnce.growAll (h : m.DeclaresOnce) (ht : m.Tallied) (as : List Addition) :
    (m.growAll as).DeclaresOnce := by
  induction as generalizing m with
  | nil => exact h
  | cons a as ih => exact ih (h.grow ht a) (ht.grow a)

/-- If the names in use are all different, the table says for each of them what it is. -/
theorem Tallied.kindOf?_eq_some_iff (h : m.Tallied) (honce : m.DeclaresOnce) {kind : DeclKind} :
    m.kindOf? n = some kind ↔ (n, kind) ∈ m.declarations := by
  have hperm : (m.entries.map Prod.fst).Perm m.names := List.Perm.map Prod.fst h
  rw [kindOf?, lookup_eq_some_iff_mem (hperm.nodup_iff.2 honce.distinct)]
  exact List.Perm.mem_iff h

/-- A call whose names can all be declared is not blocked. -/
theorem Tallied.free (h : m.Tallied) (hadmits : m.Admits (a.declarations.map Prod.fst)) :
    ¬ ∃ k, m.Blocks a k := by
  rintro ⟨k, hblocks⟩
  obtain ⟨n, kind, hk, -⟩ := id hblocks
  rw [← List.take_length (l := a.declarations), h.admits_iff] at hadmits
  exact hadmits k (List.getElem?_eq_some_iff.1 hk).1 hblocks

/-- The name at which a call stops blocks it, and the failure says what is wrong with that name. -/
theorem Tallied.stops (h : m.Tallied) {kind : DeclKind} {e : BuildError}
    (hk : a.declarations[k]? = some (n, kind))
    (hwhy : n = "" ∧ e = .emptyName m.name kind ∨
      ∃ earlier, n ≠ "" ∧ e = .alreadyDeclared m.name kind n earlier ∧
        (m.pushAll (a.declaring.take k)).kindOf? n = some earlier) :
    m.Blocks a k ∧
      (n = "" ∧ e = .emptyName m.name kind ∧ e.kind = .malformed ∨
        n ≠ "" ∧ ∃ earlier, (n, earlier) ∈ m.declarations ++ a.declarations.take k ∧
          e = .alreadyDeclared m.name kind n earlier ∧ e.kind = .namingCollision) := by
  rcases hwhy with ⟨hn, rfl⟩ | ⟨earlier, hne, rfl, huse⟩
  · exact ⟨⟨n, kind, hk, .inl hn⟩, .inl ⟨hn, rfl, rfl⟩⟩
  · have hmem := mem_of_lookup huse
    rw [(m.took_take (List.getElem?_eq_some_iff.1 hk).1).entries, List.mem_append,
      List.Perm.mem_iff h, ← List.mem_append] at hmem
    refine ⟨⟨n, kind, hk, .inr ?_⟩, .inr ⟨hne, earlier, hmem, rfl, rfl⟩⟩
    exact (List.mem_append.1 hmem).imp (fun hmem => List.mem_map.2 ⟨_, hmem, rfl⟩)
      fun hmem => List.mem_map.2 ⟨_, hmem, rfl⟩

end Module

/-- A module was made empty, with a table of names or without one, and names were added to it by any
calls, failed ones included.  Then the names in use are not empty and all different, and the table
says what they are declared as.  One more call goes on with the regions behind what was there.  It
fails exactly if one of its names is empty or in use by then.  It has then added exactly the items
before the first such name, and its failure says what is wrong with that name; otherwise it has
added them all, and its logic.  A pipeline that cannot be declared adds no logic. -/
theorem names_declared_once {m₀ : Module} {name : String}
    (hstart : m₀ = .new name ∨ m₀ = { name := name }) (as : List Addition) :
    let m := m₀.growAll as
    m.DeclaresOnce ∧ (∀ n, m.declared n = true ↔ n ∈ m.names) ∧
    (∀ n kind, m.kindOf? n = some kind ↔ (n, kind) ∈ m.declarations) ∧
    ∀ a, m.Begins (m.grow a).1 ∧
      ((m.grow a).2 ≠ none ↔ ∃ k, m.Blocks a k) ∧
      ((m.grow a).2 = none → m.Took (m.grow a).1 a a.declarations.length) ∧
      (∀ e, (m.grow a).2 = some e → ∃ k n kind, a.declarations[k]? = some (n, kind) ∧
        m.Blocks a k ∧ (∀ j < k, ¬ m.Blocks a j) ∧ m.Took (m.grow a).1 a k ∧
        (n = "" ∧ e = .emptyName m.name kind ∧ e.kind = .malformed ∨
          n ≠ "" ∧ ∃ earlier, (n, earlier) ∈ m.declarations ++ a.declarations.take k ∧
            e = .alreadyDeclared m.name kind n earlier ∧ e.kind = .namingCollision)) ∧
      (∀ p seed, a = .pipeline p seed → (m.grow a).2 ≠ none →
        (m.grow a).1.logics = m.logics) := by
  intro m
  obtain ⟨htallied, honce⟩ : m.Tallied ∧ m.DeclaresOnce := by
    have hm₀ : m₀.Tallied ∧ m₀.DeclaresOnce := by
      rcases hstart with rfl | rfl <;>
        exact ⟨.refl _, by simp [Module.names, Module.new, Module.declarations], .nil⟩
    exact ⟨hm₀.1.growAll as, hm₀.2.growAll hm₀.1 as⟩
  refine ⟨honce, fun n => htallied.declared_iff, fun n kind => htallied.kindOf?_eq_some_iff honce,
    fun a => ?_⟩
  rcases m.grow_cases a with ⟨hdone, hgrow, hadmits⟩ |
    ⟨k, n, kind, e, hk, hgrow, hadmits, hwhy⟩
  · have htook := m.took_all a
    rw [hdone, hgrow]
    exact ⟨htook.begins, iff_of_false (by simp) (htallied.free hadmits), fun _ => htook, by simp,
      fun _ _ _ h => absurd rfl h⟩
  · have hlt := (List.getElem?_eq_some_iff.1 hk).1
    have htook := m.took_take hlt
    obtain ⟨hblocks, hwhy⟩ := htallied.stops hk hwhy
    rw [hgrow]
    refine ⟨htook.begins, iff_of_true (by simp) ⟨k, hblocks⟩, by simp, fun e' he => ?_,
      fun p seed _ _ => ?_⟩
    · cases he
      exact ⟨k, n, kind, hk, hblocks, (htallied.admits_iff a k).1 hadmits, htook, hwhy⟩
    · have hlogics := htook.logics
      rwa [if_neg (by omega), List.append_nil] at hlogics

/-- Calls of which two fail in the middle: the second signal is a port by then, and the second
parameter has no name. -/
def interruptedCalls : List Addition :=
  [.ports [⟨"clk", .input, none⟩, ⟨"d__q1", .input, none⟩],
    .signals [⟨"n", .wire, none, []⟩, ⟨"clk", .wire, none, []⟩, ⟨"late", .wire, none, []⟩],
    .params [⟨"W", "4", none, false⟩, ⟨"", "1", none, false⟩]]

/-- A pipeline whose second stage is in the way of a port. -/
theorem names_declared_once_interrupted :
    let m := (Module.new "top").growAll interruptedCalls
    let delay := Addition.pipeline (.make "d" 2 1) (.ident "n")
    m.DeclaresOnce ∧ m.names = ["clk", "d__q1", "W", "n"] ∧ m.declared "late" = false ∧
    (m.grow delay).2 = some (.alreadyDeclared "top" .signal "d__q1" .port) ∧
    m.Took (m.grow delay).1 delay 1 ∧ (m.grow delay).1.logics = [] := by
  intro m delay
  obtain ⟨honce, hdeclared, -, hcall⟩ :=
    names_declared_once (.inl (rfl : Module.new "top" = .new "top")) interruptedCalls
  have hfails : (m.grow delay).2 = some (.alreadyDeclared "top" .signal "d__q1" .port) := rfl
  obtain ⟨-, -, -, hstops, hnone⟩ := hcall delay
  obtain ⟨k, n, kind, hk, -, -, htook, hwhy⟩ := hstops _ hfails
  have hlate : m.declared "late" = false := by
    rw [← Bool.not_eq_true, hdeclared]
    decide
  have hone : k = 1 := by
    have hn : n = "d__q1" := by
      rcases hwhy with ⟨-, he, -⟩ | ⟨-, earlier, -, he, -⟩
      · cases he
      · injection he with _ _ hn
        exact hn.symm
    obtain ⟨hlt, -⟩ := List.getElem?_eq_some_iff.1 hk
    subst hn
    change k < 3 at hlt
    have hname : delay.declarations[k]?.map Prod.fst = some "d__q1" := by rw [hk]; rfl
    interval_cases k
    · exact absurd hname (by decide)
    · rfl
    · exact absurd hname (by decide)
  subst hone
  exact ⟨honce, rfl, hlate, hfails, htook, hnone _ _ rfl (hfails ▸ Option.some_ne_none _)⟩

end TaskLoom
