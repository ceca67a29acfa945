import TaskLoom.Proofs.Hdl.Wiring
import TaskLoom.Proofs.Simulation.Acyclic

/-!
# The scope of a module

`Module.uses` are the identifiers in the logic and in the cells of a module, targets of assignments
included.  They should all be `Module.symbols`, which are its ports, parameters and signals; the
names of cells are declared as well, but they carry no value.  Then the module is `Module.Closed`.

A module that grows item by item has the symbols, uses and cells of its items, and no symbol is the
name of a cell (`Module.not_symbol_of_cell`).
-/

namespace TaskLoom

namespace Stmt

mutual

/-- The identifiers of a statement. -/
def names : Stmt → List String
  | .assign target value => target :: value.names
  | .branch cond onTrue onFalse => cond.names ++ (allNames onTrue ++ allNames onFalse)
  | .select subject arms => subject.names ++ armNames arms
  | .display _ args => Expr.allNames args

def allNames : List Stmt → List String
  | [] => []
  | s :: ss => names s ++ allNames ss

def armNames : List (Expr × List Stmt) → List String
  | [] => []
  | (pattern, body) :: arms => pattern.names ++ (allNames body ++ armNames arms)

end

theorem mem_allNames {n : String} {ss : List Stmt} : n ∈ allNames ss ↔ ∃ s ∈ ss, n ∈ s.names := by
  induction ss with
  | nil => simp [allNames]
  | cons s ss ih => simp [allNames, ih]

end Stmt

def Logic.names : Logic → List String
  | .assign target value => target :: value.names
  | .clocked body _ => Stmt.allNames body

/-- The identifiers that the parameters and ports of a cell are bound to. -/
def Cell.names (c : Cell) : List String := (c.params ++ c.ports).flatMap (·.arg.names)

namespace Item

def uses : Item → List String
  | .logic l => l.names
  | .cell c => c.names
  | _ => []

/-- The name that logic can refer to because of an item. -/
def symbol? : Item → Option String
  | .port p => some p.name
  | .param p => some p.name
  | .signal s => some s.name
  | _ => none

theorem name?_of_symbol? {i : Item} {n : String} (h : i.symbol? = some n) : i.name? = some n := by
  cases i with
  | cell c => cases h
  | logic l => cases h
  | _ => exact h

end Item

def symbolsOf (items : List Item) : List String := items.filterMap Item.symbol?

theorem mem_symbolsOf {n : String} {items : List Item} :
    n ∈ symbolsOf items ↔ ∃ i ∈ items, i.symbol? = some n := List.mem_filterMap

@[simp] theorem symbolsOf_append (xs ys : List Item) :
    symbolsOf (xs ++ ys) = symbolsOf xs ++ symbolsOf ys := List.filterMap_append

@[simp] theorem symbolsOf_ports (ps : List Port) : symbolsOf (ps.map .port) = ps.map Port.name := by
  simp [symbolsOf, List.filterMap_map, Function.comp_def, Item.symbol?]

@[simp] theorem symbolsOf_signals (ss : List Signal) :
    symbolsOf (ss.map .signal) = ss.map Signal.name := by
  simp [symbolsOf, List.filterMap_map, Function.comp_def, Item.symbol?]

namespace Module

/-- The names that carry values. -/
def symbols (m : Module) : List String :=
  m.ports.map Port.name ++ (m.params.map Param.name ++ m.signals.map Signal.name)

/-- All identifiers in the logic and the cells. -/
def uses (m : Module) : List String := m.logics.flatMap Logic.names ++ m.cells.flatMap Cell.names

/-- Every identifier is the name of a port, a parameter or a signal. -/
def Closed (m : Module) : Prop := ∀ n ∈ m.uses, n ∈ m.symbols

variable {m m' : Module} {items : List Item} {n : String}

theorem mem_symbols_pushAll :
    n ∈ (m.pushAll items).symbols ↔ n ∈ m.symbols ∨ n ∈ symbolsOf items := by
  induction items generalizing m with
  | nil => simp [pushAll, symbolsOf]
  | cons i items ih =>
    rw [show m.pushAll (i :: items) = (m.push i).pushAll items from rfl, ih]
    cases i <;> simp [symbols, symbolsOf, List.filterMap_cons, Item.symbol?] <;> grind

theorem mem_uses_pushAll :
    n ∈ (m.pushAll items).uses ↔ n ∈ m.uses ∨ ∃ i ∈ items, n ∈ i.uses := by
  induction items generalizing m with
  | nil => simp [pushAll]
  | cons i items ih =>
    rw [show m.pushAll (i :: items) = (m.push i).pushAll items from rfl, ih]
    cases i <;> simp [uses, Item.uses] <;> grind

theorem mem_cells_pushAll {c : Cell} :
    c ∈ (m.pushAll items).cells ↔ c ∈ m.cells ∨ .cell c ∈ items := by
  induction items generalizing m with
  | nil => simp [pushAll]
  | cons i items ih =>
    rw [show m.pushAll (i :: items) = (m.push i).pushAll items from rfl, ih]
    cases i <;> simp [or_assoc]

theorem mem_symbols_of_port {p : Port} (h : p ∈ m.ports) : p.name ∈ m.symbols :=
  List.mem_append_left _ (List.mem_map_of_mem h)

/-- A declared name that is no symbol is the name of a cell. -/
theorem cell_of_declared (ht : m.Tallied) (h : m.declared n = true) (hn : n ∉ m.symbols) :
    ∃ c ∈ m.cells, c.name = n := by
  have hnames : n ∈ m.symbols ++ m.cells.map Cell.name := by
    simpa [names, declarations, symbols] using ht.declared_iff.1 h
  exact List.mem_map.1 ((List.mem_append.1 hnames).resolve_left hn)

/-- In a module that was grown from an empty one, no symbol is the name of a cell. -/
theorem not_symbol_of_cell {name : String} (h : (Module.new name).addAll items = .ok m)
    {c : Cell} (hc : c ∈ m.cells) : c.name ∉ m.symbols := by
  intro hn
  rw [addAll_eq h] at hc hn
  have hcell : .cell c ∈ items := by simpa using mem_cells_pushAll.1 hc
  have hsymbol : c.name ∈ symbolsOf items := by simpa [symbols] using mem_symbols_pushAll.1 hn
  obtain ⟨i, hi, hin⟩ := mem_symbolsOf.1 hsymbol
  rw [item_unique (nodup_of_addAll h).1 hi hcell (Item.name?_of_symbol? hin) rfl] at hin
  cases hin

end Module

namespace Pipeline

variable (p : Pipeline) (seed : Expr)

/-- The names of the stages. -/
def stageNames : List String := p.signals.map Signal.name

@[simp] theorem symbolsOf_items : symbolsOf (p.items seed) = p.stageNames := by
  have hlogic (ls : List Logic) : symbolsOf (ls.map .logic) = [] := by
    simp [symbolsOf, List.filterMap_map, Function.comp_def, Item.symbol?]
  rw [items, symbolsOf_append, symbolsOf_signals, hlogic, List.append_nil]
  rfl

theorem stageName_mem {i : Nat} (h : i ≤ p.level) : p.stageName i ∈ p.stageNames := by
  cases i with
  | zero => exact .head _
  | succ i =>
    refine .tail _ (List.mem_map.2 ⟨⟨p.stageName (i + 1), .reg, p.range, [keepAttr]⟩, ?_, rfl⟩)
    exact List.mem_map.2 ⟨i, List.mem_range.2 (by omega), rfl⟩

theorem first_mem : p.first ∈ p.stageNames := p.stageName_mem (Nat.zero_le _)

theorem last_mem : p.last ∈ p.stageNames := p.stageName_mem (Nat.le_refl _)

/-- A pipeline uses its own stages and what drives it. -/
theorem uses_items {i : Item} (hi : i ∈ p.items seed) {n : String} (hn : n ∈ i.uses) :
    n ∈ seed.names ∨ n ∈ p.stageNames := by
  rcases List.mem_append.1 hi with hi | hi
  · obtain ⟨s, -, rfl⟩ := List.mem_map.1 hi
    cases hn
  · obtain ⟨l, hl, rfl⟩ := List.mem_map.1 hi
    rcases List.mem_cons.1 hl with rfl | hl
    · rcases List.mem_cons.1 hn with rfl | hn
      · exact .inr p.first_mem
      · exact .inl hn
    · split at hl
      · cases hl
      · rw [List.mem_singleton.1 hl] at hn
        obtain ⟨s, hs, hn⟩ := Stmt.mem_allNames.1 hn
        obtain ⟨j, hj, rfl⟩ := List.mem_map.1 hs
        rw [List.mem_range] at hj
        right
        rcases List.mem_cons.1 hn with rfl | hn
        · exact p.stageName_mem hj
        · rw [List.mem_singleton.1 hn]
          exact p.stageName_mem (Nat.le_of_lt hj)

end Pipeline

end TaskLoom
