import TaskLoom.Hdl.Pipeline
import TaskLoom.Proofs.Hdl.Items
import TaskLoom.Proofs.Simulation.Clock

/-!
# Who drives what in a module

`Wired ports items` is the discipline that all parts of a composite follow, where `ports` are names
of ports declared earlier: a clocked block assigns registers that the items themselves declare, no
register is assigned by two blocks, and a continuous assignment drives a wire or a port.  Parts that
follow it can be put one after the other (`Wired.append`) and around one another (`Wired.enclose`).

A module of such items becomes a circuit whose blocks are `Circuit.Apart` and whose registers no
assignment drives (`Wired.apart_circuit`, `Wired.not_driven`).
-/

namespace TaskLoom

/-- Whether a name is declared as a register. -/
def Module.isRegister (m : Module) (name : String) : Bool :=
  m.signals.any fun s => s.name == name && s.kind == .reg

def registersOf (items : List Item) : List String :=
  ((signalsOf items).filter (·.kind == .reg)).map Signal.name

/-- The signals that items declare apart from registers. -/
def wiresOf (items : List Item) : List String :=
  ((signalsOf items).filter (·.kind != .reg)).map Signal.name

def portNamesOf (items : List Item) : List String := (portsOf items).map Port.name

/-- The blocks among items that a simulation runs. -/
def blocksIn (items : List Item) : List (List Stmt) := Circuit.blocksOf (logicsOf items)

def assignsIn (items : List Item) : List (String × Expr) := Circuit.assignsOf (logicsOf items)

section
variable (xs ys : List Item)

@[simp] theorem registersOf_append : registersOf (xs ++ ys) = registersOf xs ++ registersOf ys := by
  simp [registersOf]

@[simp] theorem wiresOf_append : wiresOf (xs ++ ys) = wiresOf xs ++ wiresOf ys := by simp [wiresOf]

@[simp] theorem portNamesOf_append : portNamesOf (xs ++ ys) = portNamesOf xs ++ portNamesOf ys := by
  simp [portNamesOf]

@[simp] theorem blocksIn_append : blocksIn (xs ++ ys) = blocksIn xs ++ blocksIn ys := by
  simp [blocksIn, Circuit.blocksOf]

@[simp] theorem assignsIn_append : assignsIn (xs ++ ys) = assignsIn xs ++ assignsIn ys := by
  simp [assignsIn, Circuit.assignsOf]

end

@[simp] theorem portNamesOf_signals (ss : List Signal) : portNamesOf (ss.map .signal) = [] := by
  simp [portNamesOf, portsOf, List.filterMap_map, Function.comp_def, Item.port?]

@[simp] theorem blocksIn_signals (ss : List Signal) : blocksIn (ss.map .signal) = [] := by
  simp [blocksIn, Circuit.blocksOf]

@[simp] theorem blocksIn_logics (ls : List Logic) :
    blocksIn (ls.map .logic) = Circuit.blocksOf ls := by simp [blocksIn]

@[simp] theorem assignsIn_signals (ss : List Signal) : assignsIn (ss.map .signal) = [] := by
  simp [assignsIn, Circuit.assignsOf]

@[simp] theorem assignsIn_logics (ls : List Logic) :
    assignsIn (ls.map .logic) = Circuit.assignsOf ls := by simp [assignsIn]

theorem mem_registersOf {r : String} {items : List Item} :
    r ∈ registersOf items ↔ ∃ s, .signal s ∈ items ∧ s.kind = .reg ∧ s.name = r := by
  simp [registersOf, and_assoc]

theorem mem_wiresOf {r : String} {items : List Item} :
    r ∈ wiresOf items ↔ ∃ s, .signal s ∈ items ∧ s.kind ≠ .reg ∧ s.name = r := by
  simp [wiresOf, and_assoc]

theorem mem_portNamesOf {r : String} {items : List Item} :
    r ∈ portNamesOf items ↔ ∃ p, .port p ∈ items ∧ p.name = r := by
  simp [portNamesOf]

theorem mem_blocksIn {b : List Stmt} {items : List Item} :
    b ∈ blocksIn items ↔ .logic (.clocked b false) ∈ items := by
  simp only [blocksIn, Circuit.blocksOf, List.mem_filterMap, mem_logicsOf]
  constructor
  · rintro ⟨l, hl, he⟩
    split at he
    · cases he; exact hl
    · cases he
  · exact fun h => ⟨_, h, rfl⟩

theorem mem_assignsIn {a : String × Expr} {items : List Item} :
    a ∈ assignsIn items ↔ .logic (.assign a.1 a.2) ∈ items := by
  simp only [assignsIn, Circuit.assignsOf, List.mem_filterMap, mem_logicsOf]
  constructor
  · rintro ⟨l, hl, he⟩
    split at he
    · cases he; exact hl
    · cases he
  · exact fun h => ⟨_, h, rfl⟩

theorem registersOf_subset {items : List Item} : registersOf items ⊆ namesOf items := by
  intro r hr
  obtain ⟨s, hs, -, rfl⟩ := mem_registersOf.1 hr
  exact name_mem_of_signal hs

/-- Two items that declare one name are one item. -/
theorem item_unique {items : List Item} (hnd : (namesOf items).Nodup) {i j : Item} {n : String}
    (hi : i ∈ items) (hj : j ∈ items) (hin : i.name? = some n) (hjn : j.name? = some n) :
    i = j := by
  induction items with
  | nil => simp at hi
  | cons k items ih =>
    have hrest : ∀ l ∈ items, k.name? = some n → l.name? ≠ some n := by
      intro l hl hk hln
      rw [show namesOf (k :: items) = n :: namesOf items by simp [namesOf, hk]] at hnd
      exact (List.nodup_cons.1 hnd).1 (mem_namesOf.2 ⟨l, hl, hln⟩)
    have hsub : (namesOf items).Nodup := by
      rw [show namesOf (k :: items) = namesOf [k] ++ namesOf items from
        namesOf_append [k] items] at hnd
      exact (List.nodup_append.1 hnd).2.1
    rcases List.mem_cons.1 hi with rfl | hi' <;> rcases List.mem_cons.1 hj with rfl | hj'
    · rfl
    · exact absurd hjn (hrest j hj' hin)
    · exact absurd hin (hrest i hi' hjn)
    · exact ih hsub hi' hj'

theorem signal_unique {items : List Item} (hnd : (namesOf items).Nodup) {s s' : Signal}
    (h : .signal s ∈ items) (h' : .signal s' ∈ items) (he : s.name = s'.name) : s = s' := by
  injection item_unique hnd h h' (n := s.name) rfl (by rw [he]; rfl)

theorem signal_ne_port {items : List Item} (hnd : (namesOf items).Nodup) {s : Signal} {p : Port}
    (h : .signal s ∈ items) (h' : .port p ∈ items) : s.name ≠ p.name := by
  intro he
  cases item_unique hnd h h' (n := s.name) rfl (by rw [he]; rfl)

/-! ### The discipline -/

/-- Two blocks without a common target. -/
def Disjoined (b b' : List Stmt) : Prop := ∀ r ∈ Stmt.allTargets b, r ∉ Stmt.allTargets b'

structure Wired (ports : List String) (items : List Item) : Prop where
  /-- Blocks assign registers that stand among the items. -/
  own : ∀ b ∈ blocksIn items, ∀ r ∈ Stmt.allTargets b, r ∈ registersOf items
  /-- No two blocks assign the same register. -/
  apart : (namesOf items).Nodup → (blocksIn items).Pairwise Disjoined
  /-- Continuous assignments drive wires and ports. -/
  driven : ∀ a ∈ assignsIn items, a.1 ∈ wiresOf items ∨ a.1 ∈ portNamesOf items ∨ a.1 ∈ ports

namespace Wired

variable {ports : List String} {xs ys items : List Item}

theorem of_no_blocks (hb : blocksIn items = [])
    (hd : ∀ a ∈ assignsIn items, a.1 ∈ wiresOf items ∨ a.1 ∈ portNamesOf items ∨ a.1 ∈ ports) :
    Wired ports items :=
  ⟨by simp [hb], fun _ => by simp [hb], hd⟩

theorem of_no_logic (h : logicsOf items = []) : Wired ports items :=
  .of_no_blocks (by rw [blocksIn, h]; rfl) (by simp [assignsIn, h, Circuit.assignsOf])

theorem nil : Wired ports [] := .of_no_logic rfl

/-- Blocks that assign registers of different declarations are disjoined. -/
theorem disjoined_of_nodup {b b' : List Stmt} (hnd : (namesOf (xs ++ ys)).Nodup)
    (h : ∀ r ∈ Stmt.allTargets b, r ∈ registersOf xs)
    (h' : ∀ r ∈ Stmt.allTargets b', r ∈ registersOf ys) : Disjoined b b' := by
  intro r hr hr'
  rw [namesOf_append, List.nodup_append] at hnd
  exact hnd.2.2 r (registersOf_subset (h r hr)) r (registersOf_subset (h' r hr')) rfl

theorem append (h : Wired ports xs) (h' : Wired (ports ++ portNamesOf xs) ys) :
    Wired ports (xs ++ ys) where
  own b hb r hr := by
    rw [blocksIn_append, List.mem_append] at hb
    rw [registersOf_append, List.mem_append]
    exact hb.imp (h.own b · r hr) (h'.own b · r hr)
  apart hnd := by
    have hnd' := hnd
    rw [namesOf_append, List.nodup_append] at hnd'
    rw [blocksIn_append, List.pairwise_append]
    exact ⟨h.apart hnd'.1, h'.apart hnd'.2.1, fun b hb b' hb' =>
      disjoined_of_nodup hnd (h.own b hb) (h'.own b' hb')⟩
  driven a ha := by
    rw [assignsIn_append, List.mem_append] at ha
    simp only [wiresOf_append, portNamesOf_append, List.mem_append]
    rcases ha with ha | ha
    · have := h.driven a ha
      grind
    · have := h'.driven a ha
      rw [List.mem_append] at this
      grind

/-- Logic after some items may drive the registers `ss` declared before them. -/
theorem enclose {ss : List Signal} {ls : List Logic} (h : Wired ports items)
    (hown : ∀ b ∈ Circuit.blocksOf ls, ∀ r ∈ Stmt.allTargets b, r ∈ registersOf (ss.map .signal))
    (hapart : (Circuit.blocksOf ls).Pairwise Disjoined)
    (hdriven : ∀ a ∈ Circuit.assignsOf ls, a.1 ∈ wiresOf (ss.map .signal) ∨
      a.1 ∈ portNamesOf items ∨ a.1 ∈ ports) :
    Wired ports (ss.map .signal ++ (items ++ ls.map .logic)) where
  own b hb r hr := by
    simp only [blocksIn_append, blocksIn_signals, blocksIn_logics, List.nil_append,
      List.mem_append] at hb
    simp only [registersOf_append, List.mem_append]
    rcases hb with hb | hb
    · exact .inr (.inl (h.own b hb r hr))
    · exact .inl (hown b hb r hr)
  apart hnd := by
    simp only [namesOf_append, namesOf_map_logic, List.append_nil] at hnd
    have hitems := h.apart (List.nodup_append.1 hnd).2.1
    simp only [blocksIn_append, blocksIn_signals, blocksIn_logics, List.nil_append]
    refine List.pairwise_append.2 ⟨hitems, hapart, fun b hb b' hb' r hr hr' => ?_⟩
    exact disjoined_of_nodup (by rw [namesOf_append]; exact hnd) (hown b' hb') (h.own b hb) r hr' hr
  driven a ha := by
    simp only [assignsIn_append, assignsIn_signals, assignsIn_logics, List.nil_append,
      List.mem_append] at ha
    simp only [wiresOf_append, portNamesOf_append, List.mem_append]
    rcases ha with ha | ha
    · have := h.driven a ha
      grind
    · have := hdriven a ha
      grind

theorem apart_circuit {c : Circuit} (h : Wired ports items) (hnd : (namesOf items).Nodup)
    (hc : c.blocks = blocksIn items) : c.Apart := by
  rw [Circuit.Apart, hc]
  exact h.apart hnd

theorem not_driven {c : Circuit} (h : Wired [] items) (hnd : (namesOf items).Nodup)
    (hc : c.assigns = assignsIn items) {r : String} (hr : r ∈ registersOf items) :
    c.isDriven r = false := by
  obtain ⟨s, hs, hkind, rfl⟩ := mem_registersOf.1 hr
  rw [Circuit.isDriven, hc, List.any_eq_false]
  intro a ha he
  have he : a.1 = s.name := by simpa using he
  rcases h.driven a ha with hw | hp | hn
  · obtain ⟨s', hs', hkind', hname⟩ := mem_wiresOf.1 hw
    have := signal_unique hnd hs' hs (hname.trans he)
    exact hkind' (this ▸ hkind)
  · obtain ⟨p, hp, hname⟩ := mem_portNamesOf.1 hp
    exact signal_ne_port hnd hs hp (he.symm.trans hname.symm)
  · simp at hn

end Wired

namespace Pipeline

variable (p : Pipeline) (seed : Expr)

/-- The block that shifts the registers of a pipeline. -/
def shift : List Stmt :=
  (List.range p.level).map fun i => .assign (p.stageName (i + 1)) (.ident (p.stageName i))

theorem allTargets_shift :
    Stmt.allTargets p.shift = (List.range p.level).map fun i => p.stageName (i + 1) := by
  unfold shift
  induction List.range p.level with
  | nil => rfl
  | cons i is ih => simp [Stmt.allTargets, Stmt.targets, ih]

theorem allWrites_shift (ρ : Env) :
    Stmt.allWrites ρ p.shift =
      (List.range p.level).map fun i => (p.stageName (i + 1), ρ.value (p.stageName i)) := by
  unfold shift
  induction List.range p.level with
  | nil => rfl
  | cons i is ih => simp [Stmt.allWrites, Stmt.writes, Expr.eval, ih]

theorem registersOf_signals :
    registersOf (p.signals.map .signal) =
      (List.range p.level).map fun i => p.stageName (i + 1) := by
  rw [registersOf, signalsOf_map_signal, signals]
  have hall : (List.range p.level).filter (fun _ => true) = List.range p.level :=
    List.filter_eq_self.2 fun _ _ => rfl
  simp [List.filter_map, Function.comp_def, hall]

theorem first_mem_wires : p.first ∈ wiresOf (p.signals.map .signal) :=
  mem_wiresOf.2 ⟨⟨p.first, .wire, p.range, []⟩, by simp [signals], by simp, rfl⟩

theorem blocksOf_logic :
    Circuit.blocksOf (p.logic seed) = if p.level = 0 then [] else [p.shift] := by
  unfold logic
  split <;> rfl

theorem assignsOf_logic : Circuit.assignsOf (p.logic seed) = [(p.first, seed)] := by
  unfold logic
  split <;> rfl

theorem wired (ports : List String) : Wired ports (p.items seed) := by
  show Wired ports (p.signals.map .signal ++ ([] ++ (p.logic seed).map .logic))
  refine Wired.enclose .nil (fun b hb r hr => ?_) ?_ (fun a ha => ?_)
  · rw [blocksOf_logic] at hb
    split at hb
    · simp at hb
    · rw [List.mem_singleton] at hb
      rw [registersOf_signals, ← allTargets_shift, ← hb]
      exact hr
  · rw [blocksOf_logic]
    split <;> simp
  · rw [assignsOf_logic, List.mem_singleton] at ha
    rw [ha]
    exact .inl p.first_mem_wires

end Pipeline

/-! ### Widths -/

theorem getD_foldl_insert {α : Type} (key : α → String) (f : α → Int) {n : String} {v : Int}
    (xs : List α) (ws : Std.HashMap String Int) (h : ∀ x ∈ xs, key x = n → f x = v)
    (h₀ : (∃ x ∈ xs, key x = n) ∨ ws.getD n 0 = v) :
    (xs.foldl (fun ws x => ws.insert (key x) (f x)) ws).getD n 0 = v := by
  induction xs generalizing ws with
  | nil => simpa using h₀
  | cons x xs ih =>
    refine ih _ (fun y hy => h y (by simp [hy])) ?_
    rw [Std.HashMap.getD_insert]
    by_cases hx : key x = n
    · right
      simp [hx, h x (by simp) hx]
    · rcases h₀ with ⟨y, hy, hn⟩ | h₀
      · rcases List.mem_cons.1 hy with rfl | hy
        · exact absurd hn hx
        · exact .inl ⟨y, hy, hn⟩
      · right
        simp [hx, h₀]

namespace Circuit

theorem ofModule_eq {m : Module} {c : Circuit} (h : ofModule m = .ok c) :
    c = ⟨widthsOf m, assignsOf m.logics, blocksOf m.logics⟩ := by
  unfold ofModule at h
  simp only at h
  split at h
  · cases h
  · exact (Except.ok.inj h).symm

end Circuit

/-- What a circuit has in common with the items of its module. -/
structure Circuit.Reads (c : Circuit) (items : List Item) : Prop where
  nodup : (namesOf items).Nodup
  blocks : c.blocks = blocksIn items
  assigns : c.assigns = assignsIn items
  signal : ∀ s, .signal s ∈ items → c.width s.name = BitRange.simulatedWidth s.range
  port : ∀ p, .port p ∈ items → c.width p.name = BitRange.simulatedWidth p.range

theorem Module.reads_of_addAll {name : String} {items : List Item} {m : Module} {c : Circuit}
    (h : (Module.new name).addAll items = .ok m) (hc : Circuit.ofModule m = .ok c) :
    c.Reads items := by
  have hnd := (nodup_of_addAll h).1
  have hm := addAll_eq h
  have hports : m.ports = portsOf items := by rw [hm, ports_pushAll]; rfl
  have hsignals : m.signals = signalsOf items := by rw [hm, signals_pushAll]; rfl
  have hlogics : m.logics = logicsOf items := by rw [hm, logics_pushAll]; rfl
  obtain rfl := Circuit.ofModule_eq hc
  refine ⟨hnd, by rw [hlogics]; rfl, by rw [hlogics]; rfl, fun s hs => ?_, fun p hp => ?_⟩
  · refine getD_foldl_insert Signal.name _ _ _ (fun s' hs' he => ?_) (.inl ⟨s, ?_, rfl⟩)
    · rw [hsignals, mem_signalsOf] at hs'
      rw [signal_unique hnd hs' hs he]
    · rw [hsignals, mem_signalsOf]; exact hs
  · refine getD_foldl_insert Signal.name _ _ _ (fun s' hs' he => ?_) (.inr ?_)
    · rw [hsignals, mem_signalsOf] at hs'
      exact absurd he (signal_ne_port hnd hs' hp)
    · refine getD_foldl_insert Port.name _ _ _ (fun p' hp' he => ?_) (.inl ⟨p, ?_, rfl⟩)
      · rw [hports, mem_portsOf] at hp'
        injection item_unique hnd hp' hp (n := p.name) (by rw [← he]; rfl) rfl with hpp
        rw [hpp]
      · rw [hports, mem_portsOf]; exact hp

theorem Module.isRegister_of_addAll {name : String} {items : List Item} {m : Module}
    (h : (Module.new name).addAll items = .ok m) (r : String) :
    m.isRegister r = true ↔ r ∈ registersOf items := by
  have hsignals : m.signals = signalsOf items := by rw [addAll_eq h, signals_pushAll]; rfl
  rw [Module.isRegister, hsignals, mem_registersOf]
  simp only [List.any_eq_true, Bool.and_eq_true, beq_iff_eq, mem_signalsOf]
  grind

end TaskLoom
